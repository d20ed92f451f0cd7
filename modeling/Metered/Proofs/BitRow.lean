import Mathlib.Algebra.BigOperators.Group.Finset.Basic
import Mathlib.Data.List.GetD
import Mathlib.Logic.Function.Iterate
import Metered.Proofs.UnaryCost

/-!
# Generations of Rows of Bits

On a row of bits nothing that `Rule.sweep` and `Rule.successor` check can fail, and each of
them is a function on bits: `sweepBits` and `successorBits`. The generations of a row are
the iterates of the second, and a history lists them. A generation costs one unit for each
cell of the generation before it, and one more for itself.

A row of bits is read at any integer by `Row.cell`, which is zero outside of the row.

## Main results

* `cell_successorBits`: **the local law** — read at any integer whatever, the next generation
  is the rule applied to three neighbours of the row, two places further left;
* `length_generation`: the length of every generation;
* `costs_history`: a history lists the generations, at the sum of their costs.
-/

open Metered.Derivation

namespace Metered

/-! ### Rows of bits -/

namespace Row

/-- The row of data of a row of bits. -/
def ofBits (row : List Bool) : List Datum :=
  row.map Datum.ofBit

/-- The cell of a row at an integer; a row is zero outside. -/
def cell (row : List Bool) : ℤ → Bool
  | .ofNat j => row.getD j false
  | .negSucc _ => false

/-- The cell of a row at an index. -/
theorem cell_natCast (row : List Bool) (j : ℕ) : cell row j = row.getD j false := rfl

/-- The item of a row at an index, where it has one. -/
theorem getElem?_eq_cell (row : List Bool) {j : ℕ} (hj : j < row.length) :
    row[j]? = some (cell row j) := by
  rw [cell_natCast, List.getD_eq_getElem _ _ hj, List.getElem?_eq_getElem hj]

/-- A row is zero before its first cell. -/
theorem cell_of_neg (row : List Bool) {j : ℤ} (h : j < 0) : cell row j = false := by
  obtain ⟨k, rfl⟩ := Int.eq_negSucc_of_lt_zero h
  rfl

/-- A row is zero after its last cell. -/
theorem cell_of_length_le (row : List Bool) {j : ℤ} (h : row.length ≤ j) : cell row j = false := by
  obtain ⟨k, rfl⟩ := Int.eq_ofNat_of_zero_le (le_trans (Int.natCast_nonneg _) h)
  exact List.getD_eq_default _ _ (Int.ofNat_le.mp h)

/-- A row with a cell before it is the row one place further right. -/
theorem getD_cons_false (row : List Bool) (j : ℕ) :
    (false :: row).getD j false = cell row (j - 1) := by
  cases j with
  | zero => rfl
  | succ j =>
      have hj : ((j + 1 : ℕ) : ℤ) - 1 = j := by omega
      rw [hj, cell_natCast, List.getD_cons_succ]

/-- A live cell of a row stands at one of its indices. -/
theorem exists_of_cell {row : List Bool} {j : ℤ} (h : cell row j = true) :
    ∃ k : ℕ, k < row.length ∧ j = k := by
  cases j with
  | negSucc k => cases h
  | ofNat k =>
      refine ⟨k, ?_, rfl⟩
      by_contra hle
      have hnone : cell row k = false := List.getD_eq_default _ _ (not_lt.mp hle)
      exact absurd (h.symm.trans hnone) (by decide)

/-- A bit may stand in a row. -/
theorem isCell_ofBit (bit : Bool) : isCell (.ofBit bit) = true := by
  cases bit <;> rfl

/-- A row passes the check of an operation if all its cells may stand in it. -/
theorem check_of_forall {op : String} {row : List Datum} (h : ∀ cell ∈ row, isCell cell = true) :
    check op row = .ok () := by
  have hnone : row.find? (! isCell ·) = none := by
    rw [List.find?_eq_none]
    intro cell hcell
    simp [h cell hcell]
  rw [check, hnone]

/-- The cells of a row of bits pass the check of an operation. -/
theorem check_ofBits (op : String) (row : List Bool) : check op (ofBits row) = .ok () := by
  refine check_of_forall fun cell hcell => ?_
  obtain ⟨bit, -, rfl⟩ := List.mem_map.mp hcell
  exact isCell_ofBit bit

end Row

namespace Rule

/-- On bits a look-up in a rule is its outcome. -/
theorem apply_ofBit (rule : Rule) (prev cur next : Bool) :
    rule.apply (.ofBit prev) (.ofBit cur) (.ofBit next) =
      .ok (.ofBit (rule.output prev cur next)) := by
  cases prev <;> cases cur <;> cases next <;> rfl

/-! ### The next generation -/

/-- The new values of `cur` and every cell of `rest`. -/
def sweepBits (rule : Rule) (prev cur : Bool) : List Bool → List Bool
  | [] => [rule.output prev cur false]
  | next :: rest => rule.output prev cur next :: rule.sweepBits cur next rest

/-- The next generation of a row of bits. -/
def successorBits (rule : Rule) : List Bool → List Bool
  | [] => []
  | first :: rest =>
    rule.output false false first :: rule.sweepBits false first rest ++
      if rule.growsRight then [rule.output (rest.getLast?.getD first) false false] else []

/-- A sweep costs one unit for each cell. -/
theorem costs_sweep (rule : Rule) (prev cur : Bool) (rest : List Bool) :
    Costs (rule.sweep (.ofBit prev) (.ofBit cur) (Row.ofBits rest)) (rest.length + 1)
      (.ok (Row.ofBits (rule.sweepBits prev cur rest))) := by
  induction rest generalizing prev cur with
  | nil =>
      have hcell : rule.apply (.ofBit prev) (.ofBit cur) 0 = _ := rule.apply_ofBit prev cur false
      exact Costs.burn_bind (Costs.check_bind hcell (costs_pure _))
  | cons next rest ih =>
      have hcell := rule.apply_ofBit prev cur next
      refine Costs.burn_bind (Costs.check_bind hcell ?_)
      exact Costs.bind (n := 0) (ih cur next) (costs_pure _)

/-- The next generation costs one unit for each cell of the row. -/
theorem costs_successor (rule : Rule) (row : List Bool) :
    Costs (rule.successor (Row.ofBits row)) row.length
      (.ok (Row.ofBits (rule.successorBits row))) := by
  refine Costs.check_bind (Row.check_ofBits "next_row" row) ?_
  cases row with
  | nil => exact costs_pure []
  | cons first rest =>
      have hsweep := rule.costs_sweep false first rest
      have hleft : rule.apply 0 0 (.ofBit first) = _ := rule.apply_ofBit false false first
      refine hsweep.bind (n := 0) (Costs.check_bind hleft ?_)
      have hlast : (Row.ofBits rest).getLast?.getD (.ofBit first) =
          .ofBit (rest.getLast?.getD first) := by
        rw [Row.ofBits, List.getLast?_map, Option.getD_map]
      by_cases hright : rule.growsRight = true
      · have hcell := rule.apply_ofBit (rest.getLast?.getD first) false false
        rw [← hlast] at hcell
        rw [if_pos hright]
        refine Costs.cast (Costs.check_bind hcell (costs_pure _)) rfl ?_
        simp [successorBits, hright, Row.ofBits]
      · rw [if_neg hright]
        refine (costs_pure _).cast rfl ?_
        simp [successorBits, hright, Row.ofBits]

/-! ### The length of a generation -/

/-- The number of cells by which a row that is not empty grows. -/
def growth (rule : Rule) : ℕ :=
  if rule.growsRight then 2 else 1

/-- A sweep has one cell for each cell that it goes over. -/
theorem length_sweepBits (rule : Rule) (prev cur : Bool) (rest : List Bool) :
    (rule.sweepBits prev cur rest).length = rest.length + 1 := by
  induction rest generalizing prev cur with
  | nil => rfl
  | cons next rest ih => rw [sweepBits, List.length_cons, ih, List.length_cons]

/-- The next generation of an empty row is empty, that of any other row grows. -/
theorem length_successorBits (rule : Rule) (row : List Bool) :
    (rule.successorBits row).length = if row = [] then 0 else row.length + rule.growth := by
  cases row with
  | nil => rfl
  | cons first rest =>
      rw [if_neg (List.cons_ne_nil first rest), successorBits, growth]
      by_cases hright : rule.growsRight = true <;>
        simp [hright, length_sweepBits]

/-- The generations of a row: the row itself and what becomes of it. -/
def generation (rule : Rule) (start : List Bool) (i : ℕ) : List Bool :=
  rule.successorBits^[i] start

/-- A generation is what becomes of the one before it. -/
theorem generation_succ (rule : Rule) (start : List Bool) (i : ℕ) :
    rule.generation start (i + 1) = rule.successorBits (rule.generation start i) :=
  Function.iterate_succ_apply' rule.successorBits i start

/-- **Lengths.** The generations of an empty row are empty; those of any other row grow by
the same number of cells each. -/
theorem length_generation (rule : Rule) (start : List Bool) (i : ℕ) :
    (rule.generation start i).length =
      if start = [] then 0 else start.length + i * rule.growth := by
  induction i with
  | zero => cases start <;> simp [generation]
  | succ i ih =>
      rw [generation_succ, length_successorBits]
      by_cases hstart : start = []
      · rw [if_pos hstart] at ih
        rw [if_pos hstart, if_pos (List.length_eq_zero_iff.mp ih)]
      · have hpos : 0 < start.length := List.length_pos_iff.mpr hstart
        rw [if_neg hstart] at ih
        have hne : rule.generation start i ≠ [] := by
          rw [← List.length_pos_iff, ih]
          omega
        rw [if_neg hstart, if_neg hne, ih, Nat.succ_mul, Nat.add_assoc]

/-! ### The local law -/

/-- The cells of a sweep, each with its three neighbours in the row that is swept. -/
theorem getD_sweepBits (rule : Rule) (prev cur : Bool) (rest : List Bool) {j : ℕ}
    (hj : j < rest.length + 1) :
    (rule.sweepBits prev cur rest).getD j false =
      rule.output ((prev :: cur :: rest).getD j false) ((cur :: rest).getD j false)
        (rest.getD j false) := by
  induction rest generalizing prev cur j with
  | nil =>
      obtain rfl : j = 0 := by simpa using hj
      rfl
  | cons next rest ih =>
      cases j with
      | zero => rfl
      | succ j =>
          have hj' : j < rest.length + 1 := by simpa using hj
          exact ih cur next hj'

/-- The cells from the last one of a row on. -/
theorem getD_from_last (first : Bool) (rest : List Bool) (i : ℕ) :
    (first :: rest).getD (rest.length + i) false =
      [rest.getLast?.getD first].getD i false := by
  induction rest generalizing first with
  | nil => rw [List.length_nil, Nat.zero_add, List.getLast?_nil, Option.getD_none]
  | cons next rest ih =>
      rw [List.length_cons, Nat.add_right_comm, List.getD_cons_succ, ih, List.getLast?_cons,
        Option.getD_some]

/-- The cells from the right end on, recorded only if the rule grows to the right. -/
theorem getD_right_end (rule : Rule) (last : Bool) (i : ℕ) :
    (if rule.growsRight then [rule.output last false false] else []).getD i false =
      rule.output ([last].getD i false) false false := by
  cases i with
  | zero =>
      by_cases hright : rule.growsRight = true
      · rw [if_pos hright]
        rfl
      · rw [if_neg hright, List.getD_nil]
        cases last with
        | false => exact rule.output_zeros.symm
        | true => exact (Bool.eq_false_iff.mpr hright).symm
  | succ i =>
      have hrow : [last].getD (i + 1) false = false := rfl
      rw [hrow, rule.output_zeros]
      split <;> rfl

/-- **The local law.** Read at any integer whatever, the next generation is the rule applied
to three neighbours of the row, two places further left. -/
theorem cell_successorBits (rule : Rule) (row : List Bool) (j : ℤ) :
    Row.cell (rule.successorBits row) j =
      rule.output (Row.cell row (j - 2)) (Row.cell row (j - 1)) (Row.cell row j) := by
  cases row with
  | nil =>
      have hblank : ∀ p : ℤ, Row.cell [] p = false := by
        intro p
        cases p <;> rfl
      rw [successorBits, hblank, hblank, hblank, rule.output_zeros]
  | cons first rest =>
      rcases lt_trichotomy j 0 with hneg | rfl | hpos
      · rw [Row.cell_of_neg _ hneg, Row.cell_of_neg _ hneg, Row.cell_of_neg _ (by omega),
          Row.cell_of_neg _ (by omega), rule.output_zeros]
      · rfl
      · obtain ⟨k, rfl⟩ : ∃ k : ℕ, j = (k + 1 : ℕ) := ⟨(j - 1).toNat, by omega⟩
        have hprev : ((k + 1 : ℕ) : ℤ) - 2 = k - 1 := by omega
        have hcur : ((k + 1 : ℕ) : ℤ) - 1 = k := by omega
        rw [hprev, hcur, Row.cell_natCast, Row.cell_natCast, Row.cell_natCast, successorBits,
          List.cons_append, List.getD_cons_succ, List.getD_cons_succ, ← Row.getD_cons_false]
        by_cases hk : k < rest.length + 1
        · rw [List.getD_append _ _ _ _ (by rwa [length_sweepBits]), getD_sweepBits _ _ _ _ hk]
        · -- past the last cell of the row only that cell can still be a neighbour
          obtain ⟨i, rfl⟩ : ∃ i, k = rest.length + 1 + i := Nat.exists_eq_add_of_le (by omega)
          rw [List.getD_append_right _ _ _ _ (by rw [length_sweepBits]; omega),
            length_sweepBits, Nat.add_sub_cancel_left, getD_right_end]
          have hcell : (false :: first :: rest).getD (rest.length + 1 + i) false =
              [rest.getLast?.getD first].getD i false := by
            rw [Nat.add_right_comm, List.getD_cons_succ, getD_from_last]
          have hafter : (first :: rest).getD (rest.length + 1 + i) false = false :=
            List.getD_eq_default _ _ (by rw [List.length_cons]; omega)
          have hpast : rest.getD (rest.length + 1 + i) false = false :=
            List.getD_eq_default _ _ (by omega)
          rw [hcell, hafter, hpast]

/-! ### Histories -/

/-- The units that a history of a row costs: one for each generation, and one for each of
its cells. -/
def historyCost (rule : Rule) (start : List Bool) (n : ℕ) : ℕ :=
  ∑ i ∈ Finset.range n, (1 + (rule.generation start i).length)

/-- The generations of a row, oldest first. -/
def generations (rule : Rule) (start : List Bool) (n : ℕ) : List (List Bool) :=
  (List.range n).map (rule.generation start)

/-- One generation more is one at the beginning. -/
theorem generations_succ (rule : Rule) (start : List Bool) (n : ℕ) :
    rule.generations start (n + 1) = start :: rule.generations (rule.successorBits start) n := by
  rw [generations, List.range_succ_eq_map, List.map_cons, List.map_map]
  rfl

/-- A history goes on from what is held of it already. -/
theorem costs_extend (rule : Rule) (past : List (List Datum)) (start : List Bool) (n : ℕ) :
    Costs (rule.extend past (Row.ofBits start) n) (rule.historyCost start n)
      (.ok (past.reverse ++ (rule.generations start n).map Row.ofBits)) := by
  induction n generalizing past start with
  | zero => exact (costs_pure past.reverse).cast rfl (by simp [generations])
  | succ n ih =>
      refine Costs.cast (Costs.burn_bind ((rule.costs_successor start).bind (ih _ _))) ?_ ?_
      · rw [historyCost, historyCost, Finset.sum_range_succ', Nat.add_assoc,
          Nat.add_comm start.length, Nat.add_assoc]
        rfl
      · rw [generations_succ, List.map_cons, List.reverse_cons, List.append_assoc,
          List.singleton_append]

/-- **Histories.** A history of a row of bits lists its generations, at the sum of their
costs. -/
theorem costs_history (rule : Rule) (start : List Bool) (n : ℕ) :
    Costs (rule.history (Row.ofBits start) n) (rule.historyCost start n)
      (.ok ((rule.generations start n).map Row.ofBits)) := by
  refine Costs.check_bind (Row.check_ofBits "iterate" start) ?_
  exact rule.costs_extend [] start n

end Rule

end Metered
