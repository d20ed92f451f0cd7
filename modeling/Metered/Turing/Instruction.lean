import Metered.Fault
import Metered.Turing.Transition

/-!
# Instructions

An instruction is a checked entry of a table: it writes a bit, moves in a direction, and goes on to
a state of the table or to the halt. `Instruction.ofDatum` reads one from a transition or from any
three items, and tells the first of its fields that will not do.
-/

namespace Metered

/-- A checked entry; no next state is the halt. -/
structure Instruction where
  write : Bool
  move : Direction
  next : Option Nat
  deriving DecidableEq, Repr

namespace Instruction

/-- The number of a next state. -/
def nextNumber (instruction : Instruction) : Int :=
  instruction.next.elim haltState Int.ofNat

/-- The transition that an instruction stands for. -/
def toTransition (instruction : Instruction) : Transition :=
  ⟨.ofBit instruction.write, .direction instruction.move, .int instruction.nextNumber⟩

/-- The three fields of an entry: those of a transition, or what a container of three items
yields. -/
def fields? : Datum → Option (Datum × Datum × Datum)
  | .transition write move next => some (write, move, next)
  | entry =>
    match entry.items? with
    | some [write, move, next] => some (write, move, next)
    | _ => none

/-- The bit that an entry writes. -/
def write? : Datum → Option Bool
  | .int 0 => some false
  | .int 1 => some true
  | _ => none

/-- The direction of a datum: a direction, or a text that names one. -/
def direction? : Datum → Option Direction
  | .direction direction => some direction
  | .text word => Direction.ofWord? word
  | _ => none

/-- The next state of an entry of a table of `count` states. -/
def next? (count : Nat) : Datum → Option (Option Nat)
  | .int n =>
    if n = haltState then some none
    else if 0 ≤ n ∧ n < count then some (some n.toNat)
    else none
  | _ => none

/-- The instruction of an entry of a table of `count` states. -/
def ofDatum (count : Nat) (entry : Datum) : Except TableFault Instruction :=
  match fields? entry with
  | none => .error (.notTriple entry)
  | some (write, move, next) =>
    match write? write with
    | none => .error (.badWrite write)
    | some bit =>
      match direction? move with
      | none => .error (.badMove move)
      | some direction =>
        match next? count next with
        | none => .error (.badNext next count)
        | some target => .ok ⟨bit, direction, target⟩

end Instruction

/-- The direction of a datum, or the fault of naming none. -/
def Direction.ofDatum (word : Datum) : Except Fault Direction :=
  match Instruction.direction? word with
  | some direction => .ok direction
  | none => .error (.notDirection word)

end Metered
