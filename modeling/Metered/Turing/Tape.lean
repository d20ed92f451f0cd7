import Metered.Datum.Container

/-!
# Tapes

A tape is infinite both ways and zero almost everywhere. A `Tape` records the cell under the head
and finitely many cells on each side, nearest to the head first; what is not recorded is zero. A
move writes the cell under the head, and where nothing is recorded on the side it goes to it
records a zero there.
-/

namespace Metered

/-- A tape as seen from its head: the recorded cells on either side, nearest first. -/
structure Tape (α : Type) where
  left : List α
  head : α
  right : List α
  deriving DecidableEq, Repr

namespace Tape

variable {α β : Type}

/-- The tape of zeros. -/
def blank [Zero α] : Tape α := ⟨[], 0, []⟩

instance [Zero α] : Inhabited (Tape α) := ⟨blank⟩

/-- The tape after a cell is written and the head has moved to the left. -/
def moveLeft [Zero α] (tape : Tape α) (cell : α) : Tape α :=
  let (head, left) := Sequence.unconsD tape.left 0
  ⟨left, head, cell :: tape.right⟩

/-- The tape after a cell is written and the head has moved to the right. -/
def moveRight [Zero α] (tape : Tape α) (cell : α) : Tape α :=
  let (head, right) := Sequence.unconsD tape.right 0
  ⟨cell :: tape.left, head, right⟩

/-- The tape after a cell is written and the head has moved. -/
def move [Zero α] (tape : Tape α) : Direction → α → Tape α
  | .left => tape.moveLeft
  | .right => tape.moveRight

/-- The number of recorded cells before the head. -/
def position (tape : Tape α) : Nat :=
  tape.left.length

/-- The recorded cells from left to right. -/
def cells (tape : Tape α) : List α :=
  tape.left.reverse ++ tape.head :: tape.right

/-- The number of recorded cells. -/
def width (tape : Tape α) : Nat :=
  tape.left.length + 1 + tape.right.length

/-- There are as many recorded cells as the width says. -/
theorem length_cells (tape : Tape α) : tape.cells.length = tape.width := by
  simp [cells, width]; omega

/-- A tape with every cell replaced. -/
def map (f : α → β) (tape : Tape α) : Tape β :=
  ⟨tape.left.map f, f tape.head, tape.right.map f⟩

/-- A tape with its two sides exchanged. -/
def reflect (tape : Tape α) : Tape α :=
  ⟨tape.right, tape.head, tape.left⟩

/-! ### Tapes of data -/

/-- A total with a cell added to it. -/
def addCell (total : Number) (cell : Datum) : Except Fault Number :=
  match cell.number? with
  | none => .error (.unsupported "+" total.typeName cell.typeName)
  | some n =>
    match total.add? n with
    | none => .error .tooLarge
    | some sum => .ok sum

/-- The sum of the recorded cells from left to right. On a tape of bits this is the number of
ones. -/
def ones (tape : Tape Datum) : Except Fault Number :=
  tape.cells.foldlM addCell 0

/-- The datum of a tape, with both sides in their order on the line. -/
def toDatum (tape : Tape Datum) : Datum :=
  .tape (.tuple tape.left.reverse) tape.head (.tuple tape.right)

/-- The tape of a datum whose two sides are tuples. -/
def ofDatum? : Datum → Option (Tape Datum)
  | .tape (.tuple left) head (.tuple right) => some ⟨left.reverse, head, right⟩
  | _ => none

end Tape

end Metered
