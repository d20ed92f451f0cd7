import Metered.Turing.Tape

/-!
# Transitions

A transition says what to write, where to move and which state comes next, the state `-1` being the
halt. Its fields are plain data that nobody may have checked.
-/

namespace Metered

/-- The number of the halting state. -/
def haltState : Int := -1

/-- Whether a state is the halt. -/
def isHalt (state : Datum) : Bool :=
  state.integer? == some haltState

/-- An entry of a table whose fields nobody may have checked. -/
structure Transition where
  write : Datum
  move : Datum
  next : Datum
  deriving Inhabited

namespace Transition

/-- The datum of a transition. -/
def toDatum (entry : Transition) : Datum :=
  .transition entry.write entry.move entry.next

/-- The way a transition moves the head: left if that is its direction, right in all other cases. -/
def heading (entry : Transition) : Direction :=
  match entry.move with
  | .direction .left => .left
  | _ => .right

/-- The tape after a transition. -/
def apply (entry : Transition) (tape : Tape Datum) : Tape Datum :=
  tape.move entry.heading entry.write

end Transition

end Metered
