import Metered.Turing.Tape

/-!
# Tapes as They Are Given

A tape may be given as any datum. Where both of its sides are tuples it is a `Tape`. A side that is
no tuple can still be gone along as far as it is a container; once it is used up, what is recorded
anew on that side is a tuple. Only a tuple can have a cell written next to the head.

* `AnyTape.move` — a cell written and the head moved;
* `AnyTape.joined` — the tape, if both sides are tuples, or why its cells cannot be joined;
* `AnyTape.itemized` — the tape whose cells are what the sides yield.
-/

namespace Metered

/-- A tape, or any other datum in its place. -/
inductive AnyTape where
  | recorded (tape : Tape Datum)
  | other (datum : Datum)
  deriving Inhabited

namespace AnyTape

/-- The tape that a datum gives. -/
def ofDatum (d : Datum) : AnyTape :=
  match Tape.ofDatum? d with
  | some tape => recorded tape
  | none => other d

/-- The datum of a tape. -/
def toDatum : AnyTape → Datum
  | recorded tape => tape.toDatum
  | other d => d

/-! ### Fields -/

/-- The three fields of a tape; `name` is the one that is asked for first. -/
def fields (name : String) : Datum → Except Fault (Datum × Datum × Datum)
  | .tape left head right => .ok (left, head, right)
  | d => .error (.noField d.typeName name)

/-- The cell under the head. -/
def head : AnyTape → Except Fault Datum
  | recorded tape => .ok tape.head
  | other d => (fields "head" d).map fun (_, cell, _) => cell

/-! ### Moves -/

/-- The tape after a cell is written and the head has moved to the left. -/
def moveLeft (tape : AnyTape) (cell : Datum) : Except Fault AnyTape :=
  match tape with
  | recorded tape => .ok (recorded (tape.moveLeft cell))
  | other d => do
    let (left, _, right) ← fields "left" d
    let (left, head) ← left.unsnocD 0
    let right ← cell.cons right
    pure (ofDatum (.tape left head right))

/-- The tape after a cell is written and the head has moved to the right. -/
def moveRight (tape : AnyTape) (cell : Datum) : Except Fault AnyTape :=
  match tape with
  | recorded tape => .ok (recorded (tape.moveRight cell))
  | other d => do
    let (left, _, right) ← fields "right" d
    let (head, right) ← right.unconsD 0
    let left ← left.push cell
    pure (ofDatum (.tape left head right))

/-- The tape after a cell is written and the head has moved. -/
def move (tape : AnyTape) : Direction → Datum → Except Fault AnyTape
  | .left => tape.moveLeft
  | .right => tape.moveRight

/-! ### As a tape -/

/-- The fault of joining the cells of a datum that is no tape with two tuples for its sides. The
cell under the head stands between them in a tuple of its own. -/
def noJoin : Datum → Fault
  | .tape (.tuple left) _ right => (Datum.tuple left).noJoin right
  | .tape left head _ => left.noJoin (.tuple [head])
  | d => .noField d.typeName "cells"

/-- The tape, if its two sides can be joined with the cell between them. -/
def joined (tape : AnyTape) : Except Fault (Tape Datum) :=
  match Tape.ofDatum? tape.toDatum with
  | some tape => .ok tape
  | none => .error (noJoin tape.toDatum)

/-- The tape whose cells are the items that the two sides yield. -/
def itemized : AnyTape → Except Fault (Tape Datum)
  | recorded tape => .ok tape
  | other d => do
    let (left, head, right) ← fields "left" d
    let before ← left.items
    let after ← right.items
    pure ⟨before.reverse, head, after⟩

end AnyTape

end Metered
