import Mathlib.Data.Nat.Bits
import Mathlib.Data.Nat.Choose.Basic
import Metered.Proofs.Line

/-!
# Pascal's Triangle

Under rule 90 a cell becomes what distinguishes its two neighbours. Where the neighbours are the
parities of two numbers, this is the parity of their sum; so the generations of a single live cell
are the rows of Pascal's triangle modulo two, with a dead cell between any two entries.

## Main results

* `output_rule90`: the rule is a sum modulo two;
* `cell_even`, `cell_odd`: the entries of a row and the cells between them;
* `rule90_draws_pascal`: the history of a single live cell and its diagram.
-/

namespace Metered.Rule

/-- Rule 90. -/
def rule90 : Rule := { number := 90 }

/-- A cell becomes the sum of its two neighbours modulo two. -/
theorem output_rule90 (prev cur next : Bool) : rule90.output prev cur next = xor prev next := by
  cases prev <;> cases cur <;> cases next <;> rfl

/-- The generations of a single live cell. -/
def triangle (i : ℕ) : List Bool :=
  rule90.generation [true] i

/-- A row of the triangle has two cells more than the one before it. -/
theorem length_triangle (i : ℕ) : (triangle i).length = 2 * i + 1 := by
  have hgrowth : rule90.growth = 2 := rfl
  rw [triangle, length_generation, if_neg (List.cons_ne_nil _ _), hgrowth, List.length_singleton,
    Nat.mul_comm, Nat.add_comm]

/-- **The recurrence.** A cell of the triangle is the sum modulo two of two cells of the row before
it. -/
theorem cell_triangle_succ (i : ℕ) (j : ℤ) :
    Row.cell (triangle (i + 1)) j =
      xor (Row.cell (triangle i) (j - 2)) (Row.cell (triangle i) j) := by
  rw [triangle, generation_succ, cell_successorBits, output_rule90, triangle]

/-- **Entries.** The cell `2 * j` of row `i` is the parity of a binomial coefficient. -/
theorem cell_even (i j : ℕ) : Row.cell (triangle i) (2 * j : ℕ) = (i.choose j).bodd := by
  induction i generalizing j with
  | zero =>
      cases j with
      | zero => rfl
      | succ j =>
          rw [Nat.choose_zero_succ, Nat.bodd_zero]
          exact Row.cell_of_length_le _ (by rw [length_triangle]; omega)
  | succ i ih =>
      rw [cell_triangle_succ]
      cases j with
      | zero =>
          rw [Row.cell_of_neg _ (by omega), ih, Nat.choose_zero_right, Nat.choose_zero_right,
            Bool.false_xor]
      | succ j =>
          have hprev : ((2 * (j + 1) : ℕ) : ℤ) - 2 = (2 * j : ℕ) := by omega
          rw [hprev, ih, ih, Nat.choose_succ_succ, Nat.bodd_add]

/-- **Gaps.** The cells of a row with an odd index are dead. -/
theorem cell_odd (i j : ℕ) : Row.cell (triangle i) (2 * j + 1 : ℕ) = false := by
  induction i generalizing j with
  | zero => exact Row.cell_of_length_le _ (by rw [length_triangle]; omega)
  | succ i ih =>
      rw [cell_triangle_succ, ih, Bool.xor_false]
      cases j with
      | zero => exact Row.cell_of_neg _ (by omega)
      | succ j =>
          have hprev : ((2 * (j + 1) + 1 : ℕ) : ℤ) - 2 = (2 * j + 1 : ℕ) := by omega
          rw [hprev, ih]

/-- The width of the diagram of a triangle. -/
theorem columns_triangle (n : ℕ) :
    Spacetime.columns (rule90.generations [true] n) = 2 * n - 1 := by
  cases n with
  | zero => rfl
  | succ n =>
      have hgrowth : rule90.growth = 2 := rfl
      rw [columns_generations _ (List.cons_ne_nil _ _), hgrowth, List.length_singleton]
      omega

/-- **The diagram of a triangle.** Row `i` of the triangle begins in column `n - 1 - i`. -/
theorem entryAt?_triangle {n i c : ℕ} (hi : i < n) (hc : c < 2 * n - 1) :
    (Grid.diagram (rule90.generations [true] n)).entryAt? i c =
      some (Row.cell (triangle i) (c - (n - 1 - i : ℕ))).toNat := by
  have hlength := rule90.length_generations [true] n
  have hwidth : (Grid.diagram (rule90.generations [true] n)).width = 2 * n - 1 :=
    columns_triangle n
  rw [Grid.entryAt?_diagram _ (by omega) (by omega), getElem_generations, hlength, triangle]

/-- **Rule 90 draws Pascal's triangle modulo two.** The history of `n` generations of a single live
cell has the rows of the triangle: row `i` has `2 * i + 1` cells, the binomial coefficients of `i`
modulo two with a dead cell between any two. Its diagram has `n` rows of `2 * n - 1` columns: the
coefficient of `i` and `j` stands in column `n - 1 - i + 2 * j`, and all else is zero. -/
theorem rule90_draws_pascal (n : ℕ) :
    Rule.ofDatum (.int 90) = .ok rule90 ∧
    ∃ (rows : List (List Bool)) (grid : Grid),
      rule90.Records [true] n rows ∧
      Grid.ofDatum (.tuple ((rows.map Row.ofBits).map .tuple)) = .ok grid ∧
      rows.length = n ∧
      (∀ (i : ℕ) (hi : i < rows.length), rows[i].length = 2 * i + 1 ∧
        (∀ j ≤ i, (rows[i][2 * j]?).map Bool.toNat = some (i.choose j % 2)) ∧
        ∀ j < i, rows[i][2 * j + 1]? = some false) ∧
      grid.rows.length = n ∧ grid.width = 2 * n - 1 ∧
      (∀ cells ∈ grid.rows, cells.length = 2 * n - 1) ∧
      ∀ i < n,
        (∀ j ≤ i, grid.entryAt? i (n - 1 - i + 2 * j) = some (i.choose j % 2)) ∧
        ∀ c < 2 * n - 1, (∀ j ≤ i, c ≠ n - 1 - i + 2 * j) → grid.entryAt? i c = some 0 := by
  have hlength := rule90.length_generations [true] n
  have hparity (i j : ℕ) :
      (Row.cell (triangle i) (2 * j : ℕ)).toNat = i.choose j % 2 := by
    rw [cell_even, Nat.mod_two_of_bodd]
  refine ⟨rfl, rule90.generations [true] n, Grid.diagram (rule90.generations [true] n),
    rule90.records_generations [true] n, Grid.ofDatum_ofBits _, hlength, ?_, ?_,
    columns_triangle n, ?_, ?_⟩
  · intro i hi
    have hrow : (rule90.generations [true] n)[i] = triangle i := getElem_generations rule90 _ n hi
    rw [hrow]
    refine ⟨length_triangle i, fun j hj => ?_, fun j hj => ?_⟩
    · rw [Row.getElem?_eq_cell _ (by rw [length_triangle]; omega), Option.map_some, hparity]
    · rw [Row.getElem?_eq_cell _ (by rw [length_triangle]; omega), cell_odd]
  · rw [Grid.length_diagram, hlength]
  · intro cells hcells
    rw [Grid.length_of_mem_diagram hcells]
    exact columns_triangle n
  · intro i hi
    constructor
    · intro j hj
      have hindex : ((n - 1 - i + 2 * j : ℕ) : ℤ) - (n - 1 - i : ℕ) = (2 * j : ℕ) := by omega
      rw [entryAt?_triangle hi (by omega), hindex, hparity]
    · intro c hc hgap
      rw [entryAt?_triangle hi hc]
      obtain hbefore | hfrom := lt_or_ge c (n - 1 - i)
      · rw [Row.cell_of_neg _ (by omega)]
        rfl
      · obtain ⟨k, rfl⟩ := Nat.exists_eq_add_of_le hfrom
        have hindex : ((n - 1 - i + k : ℕ) : ℤ) - (n - 1 - i : ℕ) = k := by omega
        rw [hindex]
        obtain ⟨j, rfl | rfl⟩ := Nat.even_or_odd' k
        · -- the even places within the row are those of the coefficients
          have hj : ¬ j ≤ i := fun hj => hgap j hj rfl
          rw [Row.cell_of_length_le _ (by rw [length_triangle]; omega)]
          rfl
        · rw [cell_odd]
          rfl

example : rule90.generations [true] 4 =
    [[true], [true, false, true], [true, false, false, false, true],
      [true, false, true, false, true, false, true]] := by
  decide

end Metered.Rule
