import Mathlib.Algebra.Order.BigOperators.Group.List
import Mathlib.Algebra.Order.Ring.Int
import Metered.Turing.Tape

/-!
# Recorded Cells

Which cells a tape has recorded after a move, and what they add up to. A move takes the cell
under the head away from the sum and adds what is written in its place. A zero that is recorded
at an edge adds nothing.

Floating-point numbers round, so that their sum depends on the order. The sum is spoken of where
all cells are integers or truth values.

## Main results

* `Tape.mem_cells_move`: a move records nothing new but what it writes and zeros;
* `Tape.ones_eq_total`: the sum of the cells from left to right is their total;
* `Tape.total_move`: the total after a move.
-/

namespace Metered

namespace Tape

/-! ### Cells after a move -/

section

variable {α : Type} {tape : Tape α} {cell : α}

/-- A recorded cell is under the head or on one of its sides. -/
theorem mem_cells :
    cell ∈ tape.cells ↔ cell ∈ tape.left ∨ cell = tape.head ∨ cell ∈ tape.right := by
  simp [cells]

/-- The cell under the head is recorded. -/
theorem head_mem_cells (tape : Tape α) : tape.head ∈ tape.cells :=
  mem_cells.mpr (.inr (.inl rfl))

/-- A cell that is recorded after a move is the one that was written, a zero, or one that
was recorded before. -/
theorem mem_cells_move [Zero α] {direction : Direction} {written : α}
    (h : cell ∈ (tape.move direction written).cells) :
    cell = written ∨ cell = 0 ∨ cell ∈ tape.cells := by
  obtain ⟨left, head, right⟩ := tape
  rw [mem_cells] at h ⊢
  cases direction with
  | left =>
      cases left <;> simp only [move, moveLeft, Sequence.unconsD, List.mem_cons] at h ⊢ <;> tauto
  | right =>
      cases right <;> simp only [move, moveRight, Sequence.unconsD, List.mem_cons] at h ⊢ <;> tauto

end

/-- What holds of every bit and every recorded cell still holds of every recorded cell after a
move that writes a bit. -/
theorem forall_mem_cells_move {tape : Tape Datum} {P : Datum → Prop} (hbit : ∀ bit, P (.ofBit bit))
    (h : ∀ cell ∈ tape.cells, P cell) (direction : Direction) (bit : Bool) :
    ∀ cell ∈ (tape.move direction (.ofBit bit)).cells, P cell := by
  intro cell hcell
  rcases mem_cells_move hcell with rfl | rfl | hcell
  · exact hbit bit
  · exact hbit false
  · exact h cell hcell

end Tape

/-! ### Sums of cells -/

/-- The integer that a cell adds to a sum; only integers and truth values add one. -/
def Datum.summand? (cell : Datum) : Option ℤ :=
  cell.number?.bind fun n => n.value.getLeft?

/-- The integer that a cell adds to a sum, and zero where it adds none. -/
def Datum.summand (cell : Datum) : ℤ :=
  cell.summand?.getD 0

/-- A bit adds one or nothing. -/
theorem Datum.summand?_ofBit (bit : Bool) :
    (Datum.ofBit bit).summand? = some (if bit then 1 else 0) := by
  cases bit <;> rfl

namespace Tape

variable {tape : Tape Datum}

/-- Every recorded cell is an integer or a truth value. -/
def IsIntegral (tape : Tape Datum) : Prop :=
  ∀ cell ∈ tape.cells, ∃ n, cell.summand? = some n

/-- Every recorded cell is a bit, which may be a truth value. -/
def IsBinary (tape : Tape Datum) : Prop :=
  ∀ cell ∈ tape.cells, cell.summand? = some 0 ∨ cell.summand? = some 1

/-- Bits are integers or truth values. -/
theorem IsBinary.isIntegral (h : tape.IsBinary) : tape.IsIntegral := by
  intro cell hcell
  rcases h cell hcell with hzero | hone
  · exact ⟨0, hzero⟩
  · exact ⟨1, hone⟩

/-- What a bit adds to a sum is zero or one. -/
theorem IsBinary.summand_cases (h : tape.IsBinary) {cell : Datum} (hcell : cell ∈ tape.cells) :
    cell.summand = 0 ∨ cell.summand = 1 := by
  rcases h cell hcell with hzero | hone
  · exact .inl (by rw [Datum.summand, hzero, Option.getD_some])
  · exact .inr (by rw [Datum.summand, hone, Option.getD_some])

/-- The total of the recorded cells. -/
def total (tape : Tape Datum) : ℤ :=
  (tape.cells.map Datum.summand).sum

/-- A cell is added to a sum of integers. -/
theorem addCell_int {cell : Datum} {n : ℤ} (h : cell.summand? = some n) (m : ℤ) :
    addCell (.int m) cell = .ok (.int (m + n)) := by
  obtain ⟨number, hnumber, hvalue⟩ := Option.bind_eq_some_iff.mp h
  have hsum : (Number.int m).add? number = some (.int (m + n)) := by
    rw [Number.add?, Sum.getLeft?_eq_some_iff.mp hvalue]
    rfl
  simp only [addCell, hnumber, hsum]

/-- Cells are added one by one to a sum of integers. -/
theorem foldlM_addCell {cells : List Datum} (h : ∀ cell ∈ cells, ∃ n, cell.summand? = some n)
    (m : ℤ) :
    cells.foldlM addCell (.int m) = .ok (.int (m + (cells.map Datum.summand).sum)) := by
  induction cells generalizing m with
  | nil => simp [pure, Except.pure]
  | cons cell rest ih =>
      obtain ⟨n, hn⟩ := h cell List.mem_cons_self
      have hrest := ih (fun other hother => h other (List.mem_cons_of_mem _ hother)) (m + n)
      have hsummand : cell.summand = n := by rw [Datum.summand, hn, Option.getD_some]
      rw [List.foldlM_cons, addCell_int hn]
      change rest.foldlM addCell (.int (m + n)) = _
      rw [hrest, List.map_cons, List.sum_cons, hsummand, Int.add_assoc]

/-- **The sum of the recorded cells** is their total. -/
theorem ones_eq_total (h : tape.IsIntegral) : tape.ones = .ok (.int tape.total) := by
  have hsum := foldlM_addCell h 0
  rwa [Int.zero_add] at hsum

/-- The total counts the two sides and the cell between them. -/
theorem total_eq (tape : Tape Datum) :
    tape.total = (tape.left.map Datum.summand).sum + tape.head.summand +
      (tape.right.map Datum.summand).sum := by
  rw [total, cells, List.map_append, List.map_reverse, List.sum_append, List.sum_reverse,
    List.map_cons, List.sum_cons, Int.add_assoc]

/-- The cell that a move goes to and what lies behind it add up to the side they come from, also
where nothing is recorded on that side. -/
theorem summand_unconsD (side : List Datum) :
    (Sequence.unconsD side 0).1.summand +
      ((Sequence.unconsD side 0).2.map Datum.summand).sum = (side.map Datum.summand).sum := by
  cases side with
  | nil => rfl
  | cons next rest => rw [List.map_cons, List.sum_cons, Sequence.unconsD]

/-- **The total after a move** has the cell that was written in place of the one that was under
the head. -/
theorem total_move (tape : Tape Datum) (direction : Direction) (cell : Datum) :
    (tape.move direction cell).total = tape.total - tape.head.summand + cell.summand := by
  rw [total_eq, total_eq]
  cases direction with
  | left =>
      have hside := summand_unconsD tape.left
      simp only [move, moveLeft, List.map_cons, List.sum_cons]
      omega
  | right =>
      have hside := summand_unconsD tape.right
      simp only [move, moveRight, List.map_cons, List.sum_cons]
      omega

/-- The total of recorded bits is at most their number. -/
theorem IsBinary.total_le (h : tape.IsBinary) : tape.total ≤ tape.width := by
  have hone : ∀ summand ∈ tape.cells.map Datum.summand, summand ≤ 1 := by
    intro summand hsummand
    obtain ⟨cell, hcell, rfl⟩ := List.mem_map.mp hsummand
    rcases h.summand_cases hcell with hzero | hone <;> omega
  have hsum := List.sum_le_card_nsmul _ 1 hone
  rwa [List.length_map, length_cells, nsmul_one] at hsum

end Tape

end Metered
