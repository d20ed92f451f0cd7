import Metered.Proofs.Line

/-!
# Reflected Automata

A rule read from right to left is a rule again, the **reflection** of the first. On the infinite
line reflecting the rule and reflecting the line undo each other. Rows do not look reflected: every
row begins one cell further left than the one before it, and only some rules add a cell on the
right. Yet as stretches of the line over zeros they are, since what a row leaves out is zero.

A rule that is its own reflection and grows to both sides keeps palindromes, and the diagram of such
a history is symmetric.

## Main results

* `output_reflect`: the table of the reflected rule;
* `globalMap_reflect`: the action of the reflected rule on the reflected line;
* `cell_generation_reflect`: the generations of the reversed row under the reflected rule;
* `history_reflects`: histories are reflected, and those of palindromes under a symmetric rule that
  grows to both sides are symmetric, as are their diagrams.
-/

namespace Metered

/-! ### Reversed rows -/

namespace Row

/-- A reversed row is the row read from its other end. -/
theorem cell_reverse (row : List Bool) (j : ℤ) :
    cell row.reverse j = cell row (row.length - 1 - j) := by
  obtain hneg | hnonneg := lt_or_ge j 0
  · rw [cell_of_neg _ hneg, cell_of_length_le row (by omega)]
  · obtain ⟨k, rfl⟩ := Int.eq_ofNat_of_zero_le hnonneg
    by_cases hk : k < row.length
    · have hindex : (row.length : ℤ) - 1 - k = (row.length - 1 - k : ℕ) := by omega
      rw [hindex, cell_natCast, cell_natCast,
        List.getD_eq_getElem _ _ (by rwa [List.length_reverse]),
        List.getD_eq_getElem _ _ (by omega), List.getElem_reverse]
    · rw [cell_of_neg row (by omega), cell_of_length_le _ (by rw [List.length_reverse]; omega)]

/-- Rows of one length with the same cells are equal. -/
theorem ext_cell {x y : List Bool} (hlength : x.length = y.length)
    (h : ∀ j : ℤ, cell x j = cell y j) : x = y := by
  refine List.ext_getElem hlength fun j hx hy => ?_
  have hj := h j
  rwa [cell_natCast, cell_natCast, List.getD_eq_getElem _ _ hx, List.getD_eq_getElem _ _ hy] at hj

end Row

namespace Rule

/-! ### Reflected rules -/

/-- The outcome of the reflected rule for the neighbourhood of a number. -/
def reflectedOutput (rule : Rule) (i : Fin 8) : Bool :=
  rule.output (i.val.testBit 0) (i.val.testBit 1) (i.val.testBit 2)

/-- **The reflected rule**: what a cell becomes from its three neighbours, read from right to
left. -/
def reflect (rule : Rule) : Rule where
  number := Nat.ofBits rule.reflectedOutput
  number_lt := Nat.ofBits_lt_two_pow rule.reflectedOutput
  number_even := by
    have hzero := Nat.testBit_ofBits_lt rule.reflectedOutput 0 (by decide)
    have hbackground : rule.reflectedOutput ⟨0, by decide⟩ = false := rule.output_zeros
    rw [hbackground, Nat.testBit_zero, decide_eq_false_iff_not] at hzero
    omega

/-- The number of a neighbourhood has its three bits as binary digits. -/
theorem testBit_index (prev cur next : Bool) :
    (index prev cur next).testBit 0 = next ∧ (index prev cur next).testBit 1 = cur ∧
      (index prev cur next).testBit 2 = prev := by
  cases prev <;> cases cur <;> cases next <;> decide

/-- **The table of the reflected rule.** -/
theorem output_reflect (rule : Rule) (prev cur next : Bool) :
    rule.reflect.output prev cur next = rule.output next cur prev := by
  have hindex : index prev cur next < 8 := by
    cases prev <;> cases cur <;> cases next <;> decide
  obtain ⟨hnext, hcur, hprev⟩ := testBit_index prev cur next
  refine (Nat.testBit_ofBits_lt rule.reflectedOutput (index prev cur next) hindex).trans ?_
  rw [reflectedOutput, hnext, hcur, hprev]

example : rule110.reflect = { number := 124 } := by decide

/-- **The reflected line.** Reflecting the line about any point turns the action of a rule into that
of the reflected rule. -/
theorem globalMap_reflect (rule : Rule) (center : ℤ) :
    Function.Semiconj (fun line p => line (center - p)) rule.globalMap
      rule.reflect.globalMap := by
  intro line
  funext p
  have hprev : center - (p - 1) = center - p + 1 := by omega
  have hnext : center - (p + 1) = center - p - 1 := by omega
  simp only [globalMap, output_reflect, hprev, hnext]

/-- **Reflected generations.** The generations of the reversed row under the reflected rule show the
same stretches of the line, read from right to left. -/
theorem cell_generation_reflect (rule : Rule) (start : List Bool) (i : ℕ) (p : ℤ) :
    Row.cell (rule.generation start i) (p + i) =
      Row.cell (rule.reflect.generation start.reverse i) (start.length - 1 - p + i) := by
  have hline : Row.cell start.reverse = fun q => Row.cell start (start.length - 1 - q) :=
    funext (Row.cell_reverse start)
  have hiterate := (rule.globalMap_reflect (start.length - 1)).iterate_right i (Row.cell start)
  rw [← iterate_globalMap, ← iterate_globalMap, hline, ← hiterate]
  simp only [Int.sub_sub_self]

/-- A palindrome stays one under a rule that is its own reflection and grows to both sides. -/
theorem reverse_generation {rule : Rule} (hrule : rule.reflect = rule)
    (hgrows : rule.output true false false = true) {start : List Bool}
    (hstart : start.reverse = start) (i : ℕ) :
    (rule.generation start i).reverse = rule.generation start i := by
  refine Row.ext_cell List.length_reverse fun j => ?_
  obtain rfl | hne := eq_or_ne start []
  · have hnil : rule.generation [] i = [] :=
      List.length_eq_zero_iff.mp (rule.length_generation [] i)
    rw [hnil, List.reverse_nil]
  · have hgrowth : rule.growth = 2 := if_pos hgrows
    have hlength := rule.length_generation start i
    have hreflect := rule.cell_generation_reflect start i (j - i)
    rw [if_neg hne, hgrowth] at hlength
    rw [hrule, hstart, Int.sub_add_cancel] at hreflect
    have hindex : ((start.length : ℤ) - 1 - (j - i) + i) =
        (rule.generation start i).length - 1 - j := by omega
    rw [hreflect, hindex, Row.cell_reverse]

end Rule

/-! ### Symmetric diagrams -/

namespace Grid

/-- A reversed row of a grid has its cells reversed and the zeros around them exchanged. -/
theorem reverse_row {width shift : ℕ} {cells : List ℕ} (h : shift + cells.length ≤ width) :
    (row width shift cells).reverse = row width (width - shift - cells.length) cells.reverse := by
  have hshift : width - (width - shift - cells.length) - cells.length = shift := by omega
  simp only [row, List.reverse_append, List.reverse_replicate, List.append_assoc,
    List.length_reverse, hshift]

/-- A row of a grid without cells is zero throughout. -/
theorem row_nil {width shift : ℕ} (h : shift ≤ width) :
    row width shift [] = List.replicate width 0 := by
  have hwidth : shift + (width - shift - 0) = width := by omega
  rw [row, List.append_nil, List.length_nil, List.replicate_append_replicate, hwidth]

end Grid

namespace Rule

/-- The diagram of a palindrome under a rule that is its own reflection and grows to both sides is
symmetric. -/
theorem reverse_of_mem_diagram {rule : Rule} (hrule : rule.reflect = rule)
    (hgrows : rule.output true false false = true) {start : List Bool}
    (hstart : start.reverse = start) {n : ℕ} {cells : List ℕ}
    (hcells : cells ∈ (Grid.diagram (rule.generations start n)).rows) :
    cells.reverse = cells := by
  obtain ⟨i, hi, rfl⟩ := Grid.exists_of_mem_diagram hcells
  have hroom := Spacetime.add_length_le_columns _ hi
  have hlength := rule.length_generations start n
  have hrow := rule.length_generation start i
  have hpalindrome := reverse_generation hrule hgrows hstart i
  rw [getElem_generations] at hroom ⊢
  rw [Grid.reverse_row (by rwa [List.length_map]), List.length_map, ← List.map_reverse, hpalindrome]
  obtain rfl | hne := eq_or_ne start []
  · have hnil : rule.generation [] i = [] := List.length_eq_zero_iff.mp hrow
    rw [hnil, List.map_nil, Grid.row_nil (by omega), Grid.row_nil (by rw [hnil] at hroom; omega)]
  · obtain ⟨m, rfl⟩ : ∃ m, n = m + 1 := ⟨n - 1, by omega⟩
    have hgrowth : rule.growth = 2 := if_pos hgrows
    have hwidth := rule.columns_generations hne m
    rw [if_neg hne, hgrowth] at hrow
    rw [hgrowth] at hwidth
    have hshift : Spacetime.columns (rule.generations start (m + 1)) -
        ((rule.generations start (m + 1)).length - 1 - i) - (rule.generation start i).length =
        (rule.generations start (m + 1)).length - 1 - i := by omega
    rw [hshift]

/-- **Histories are reflected.** Let `A` be the history of a row under a rule, and `B` that of the
reversed row under the reflected rule. The rows of both show the same line: what stands in row `i`
of `A` at the position `p` of the line stands in row `i` of `B` at the position `p` counted from the
other end of the row at the start, and outside of the rows there are zeros. If the rule is its own
reflection and grows to both sides and the row is a palindrome, then so is every row of the history,
and the diagram is the same with its columns reversed. -/
theorem history_reflects (rule : Rule) (start : List Bool) (n : ℕ) :
    (∀ prev cur next, rule.reflect.output prev cur next = rule.output next cur prev) ∧
    ∃ (rows reflected : List (List Bool)) (grid : Grid),
      rule.Records start n rows ∧ rule.reflect.Records start.reverse n reflected ∧
      Grid.ofDatum (.tuple ((rows.map Row.ofBits).map .tuple)) = .ok grid ∧
      rows.length = n ∧ reflected.length = n ∧
      (∀ (i : ℕ) (hi : i < rows.length) (hi' : i < reflected.length) (p : ℤ),
        Row.cell rows[i] (p + i) = Row.cell reflected[i] (start.length - 1 - p + i)) ∧
      (rule.reflect = rule → rule.output true false false = true → start.reverse = start →
        (∀ row ∈ rows, row.reverse = row) ∧ grid.rows.map List.reverse = grid.rows) := by
  refine ⟨rule.output_reflect, rule.generations start n, rule.reflect.generations start.reverse n,
    Grid.diagram (rule.generations start n), rule.records_generations start n,
    rule.reflect.records_generations start.reverse n, Grid.ofDatum_ofBits _,
    rule.length_generations start n, rule.reflect.length_generations start.reverse n, ?_, ?_⟩
  · intro i hi hi' p
    rw [getElem_generations, getElem_generations]
    exact rule.cell_generation_reflect start i p
  · intro hrule hgrows hstart
    constructor
    · intro row hrow
      obtain ⟨i, -, rfl⟩ := List.mem_map.mp hrow
      exact reverse_generation hrule hgrows hstart i
    · have hrows : ∀ cells ∈ (Grid.diagram (rule.generations start n)).rows,
          cells.reverse = cells := fun cells hcells =>
        reverse_of_mem_diagram hrule hgrows hstart hcells
      exact (List.map_congr_left hrows).trans (List.map_id' _)

/-- Rule 90 is its own reflection and grows to both sides, so it keeps the palindrome of three
cells. -/
theorem history_reflects_three_cells :
    let rule : Rule := { number := 90 }
    let start := [true, false, true]
    rule.reflect = rule ∧ rule.output true false false = true ∧ start.reverse = start ∧
    ∃ (rows : List (List Bool)) (grid : Grid), rule.Records start 4 rows ∧
      Grid.ofDatum (.tuple ((rows.map Row.ofBits).map .tuple)) = .ok grid ∧ rows.length = 4 ∧
      (∀ row ∈ rows, row.reverse = row) ∧ grid.rows.map List.reverse = grid.rows := by
  intro rule start
  have hrule : rule.reflect = rule := by decide
  have hgrows : rule.output true false false = true := by decide
  obtain ⟨-, rows, _, grid, hrecords, -, hgrid, hlength, -, -, hsymmetric⟩ :=
    rule.history_reflects start 4
  exact ⟨hrule, hgrows, rfl, rows, grid, hrecords, hgrid, hlength, hsymmetric hrule hgrows rfl⟩

end Rule

end Metered
