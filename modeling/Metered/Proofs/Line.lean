import Metered.Proofs.Diagram

/-!
# The Infinite Line

An elementary cellular automaton acts on the cells of an infinite line, all of them at once.
Rows of bits compute this action: a row is a stretch of the line outside of which all cells
are zero, and each generation begins one position further left than the one before it.

## Main results

* `iterate_globalMap`: the generations of a row are the iterates of the action on the line;
* `exists_of_iterate_globalMap`: no live cell of the line is ever lost;
* `history_eq_line`: histories and their diagrams show the line.
-/

open Metered.Derivation

namespace Metered.Rule

/-- The action of a rule on the infinite line. -/
def globalMap (rule : Rule) (line : ℤ → Bool) : ℤ → Bool :=
  fun p => rule.output (line (p - 1)) (line p) (line (p + 1))

/-- **Generations are iterates.** The generation `i` of a row is the stretch of the line from
position `-i` on. -/
theorem iterate_globalMap (rule : Rule) (start : List Bool) (i : ℕ) (p : ℤ) :
    rule.globalMap^[i] (Row.cell start) p = Row.cell (rule.generation start i) (p + i) := by
  induction i generalizing p with
  | zero => rw [Nat.cast_zero, Int.add_zero]; rfl
  | succ i ih =>
      have hprev : p - 1 + (i : ℤ) = p + (i + 1 : ℕ) - 2 := by omega
      have hcur : p + (i : ℤ) = p + (i + 1 : ℕ) - 1 := by omega
      have hnext : p + 1 + (i : ℤ) = p + (i + 1 : ℕ) := by omega
      rw [Function.iterate_succ_apply', globalMap, ih, ih, ih, hprev, hcur, hnext,
        generation_succ, cell_successorBits]

/-- **No live cell is lost.** A live cell of the line is recorded in the row. -/
theorem exists_of_iterate_globalMap {rule : Rule} {start : List Bool} {i : ℕ} {p : ℤ}
    (h : rule.globalMap^[i] (Row.cell start) p = true) :
    ∃ j : ℕ, j < (rule.generation start i).length ∧ p = j - i := by
  rw [iterate_globalMap] at h
  obtain ⟨j, hj, hp⟩ := Row.exists_of_cell h
  exact ⟨j, hj, by omega⟩

/-- The number of generations in a history. -/
theorem length_generations (rule : Rule) (start : List Bool) (n : ℕ) :
    (rule.generations start n).length = n := by
  rw [generations, List.length_map, List.length_range]

/-- The rows of a history are the generations. -/
theorem getElem_generations (rule : Rule) (start : List Bool) (n : ℕ) {i : ℕ}
    (hi : i < (rule.generations start n).length) :
    (rule.generations start n)[i] = rule.generation start i := by
  simp [generations]

/-- **The width of a diagram.** The generations of a row that is not empty need one column more on
the left for each, and one more on the right if the rule grows to the right. -/
theorem columns_generations (rule : Rule) {start : List Bool} (hstart : start ≠ []) (n : ℕ) :
    Spacetime.columns (rule.generations start (n + 1)) = start.length + n * rule.growth := by
  have hlength := rule.length_generations start (n + 1)
  have hgrowth : 1 ≤ rule.growth := by
    rw [growth]
    split <;> omega
  refine le_antisymm (Spacetime.columns_le fun i hi => ?_) ?_
  · -- a step further left is made up for by the growth
    obtain ⟨k, rfl⟩ : ∃ k, n = i + k := Nat.exists_eq_add_of_le (by omega)
    have hk : k ≤ k * rule.growth := Nat.le_mul_of_pos_right k hgrowth
    rw [getElem_generations, length_generation, if_neg hstart, hlength, Nat.add_mul]
    omega
  · have hlast : n < (rule.generations start (n + 1)).length := by omega
    have hroom := Spacetime.add_length_le_columns _ hlast
    rw [getElem_generations, length_generation, if_neg hstart, hlength] at hroom
    omega

/-- A query for a history of a row of bits. -/
theorem costs_derive_history (rule : Rule) (start : List Bool) (n : ℕ) :
    Costs (Query.derive (.history rule (.tuple (Row.ofBits start)) (.int n)))
      (rule.historyCost start n)
      (.ok (.tuple (((rule.generations start n).map Row.ofBits).map .tuple))) := by
  have hrows : Costs (rule.historyDatum (.tuple (Row.ofBits start)) n)
      (rule.historyCost start n) (.ok ((rule.generations start n).map Row.ofBits)) :=
    Costs.check_bind rfl (rule.costs_history start n)
  exact Costs.bind (n := 0) (Query.costs_onNatural "iterate" hrows) (costs_pure _)

/-- The history of a row of bits: the query for it costs what its generations cost, and these rows
are the answer. -/
def Records (rule : Rule) (start : List Bool) (n : ℕ) (rows : List (List Bool)) : Prop :=
  Costs (Query.derive (.history rule (.tuple (Row.ofBits start)) (.int n)))
    (rule.historyCost start n) (.ok (.tuple ((rows.map Row.ofBits).map .tuple)))

/-- A history records the generations. -/
theorem records_generations (rule : Rule) (start : List Bool) (n : ℕ) :
    rule.Records start n (rule.generations start n) :=
  rule.costs_derive_history start n

/-- **Histories and their diagrams show the line.** A history of `n` generations has `n`
rows; their lengths are known in advance, cell `j` of row `i` stands at the position `j - i`
of the line, and no live cell of the line is left out. The diagram of the history is a
rectangle in which every column is one position of the line. -/
theorem history_eq_line (rule : Rule) (start : List Bool) (n : ℕ) :
    ∃ (rows : List (List Bool)) (grid : Grid),
      Costs (Query.derive (.history rule (.tuple (Row.ofBits start)) (.int n)))
        (rule.historyCost start n) (.ok (.tuple ((rows.map Row.ofBits).map .tuple))) ∧
      rows.length = n ∧
      (∀ (i : ℕ) (hi : i < rows.length),
        rows[i].length =
          (if start = [] then 0
            else start.length + i * if rule.output true false false then 2 else 1) ∧
        (∀ (j : ℕ) (hj : j < rows[i].length),
          rows[i][j] = rule.globalMap^[i] (Row.cell start) (j - i)) ∧
        ∀ p : ℤ, rule.globalMap^[i] (Row.cell start) p = true →
          ∃ j : ℕ, j < rows[i].length ∧ p = j - i) ∧
      Grid.ofDatum (.tuple ((rows.map Row.ofBits).map .tuple)) = .ok grid ∧
      grid.rows.length = n ∧
      (∀ cells ∈ grid.rows, cells.length = grid.width) ∧
      ∀ i < n,
        (∀ c < grid.width, grid.entryAt? i c =
          some (rule.globalMap^[i] (Row.cell start) (c - (n - 1))).toNat) ∧
        ∀ p : ℤ, rule.globalMap^[i] (Row.cell start) p = true →
          ∃ c : ℕ, c < grid.width ∧ p = c - (n - 1) := by
  have hlength := rule.length_generations start n
  refine ⟨rule.generations start n, Grid.diagram (rule.generations start n),
    rule.costs_derive_history start n, hlength, ?_, Grid.ofDatum_ofBits _, ?_, ?_, ?_⟩
  · intro i hi
    rw [getElem_generations]
    refine ⟨rule.length_generation start i, ?_, ?_⟩
    · intro j hj
      rw [iterate_globalMap, Int.sub_add_cancel, Row.cell_natCast, List.getD_eq_getElem _ _ hj]
    · intro p hp
      exact exists_of_iterate_globalMap hp
  · rw [Grid.length_diagram, hlength]
  · intro cells hcells
    exact Grid.length_of_mem_diagram hcells
  · intro i hi
    have hrow : i < (rule.generations start n).length := by rwa [hlength]
    constructor
    · intro c hc
      have hcolumn : (c : ℤ) - (n - 1 - i : ℕ) = c - (n - 1) + i := by omega
      rw [Grid.entryAt?_diagram _ hrow hc, getElem_generations, iterate_globalMap, hlength,
        hcolumn]
    · intro p hp
      obtain ⟨j, hj, rfl⟩ := exists_of_iterate_globalMap hp
      have hroom := Spacetime.add_length_le_columns _ hrow
      rw [getElem_generations, hlength] at hroom
      have hwidth : (Grid.diagram (rule.generations start n)).width =
          Spacetime.columns (rule.generations start n) := rfl
      exact ⟨n - 1 - i + j, by omega, by omega⟩

end Metered.Rule
