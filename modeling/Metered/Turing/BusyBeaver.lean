import Metered.Turing.Table

/-!
# Busy Beavers

Published champions: machines of few states that are known to halt, with the tape they halt on and
the number of transitions they make from the blank tape.
-/

namespace Metered

/-- A machine that is known to halt. -/
structure BusyBeaver where
  name : String
  table : Datum
  halting : Tape Datum
  steps : Nat

namespace BusyBeaver

/-- An entry as a triple of literals. -/
def entry (write : Int) (move : String) (next : Int) : Datum :=
  .tuple [.int write, .text move, .int next]

/-- A state as a dictionary of its entries. -/
def state (onZero onOne : Datum) : Datum :=
  .dict [(.int 0, onZero), (.int 1, onOne)]

/-- The champion of three states. -/
def threeStates : BusyBeaver where
  name := "bb-3-2"
  table := .tuple [
    state (entry 1 "R" 1) (entry 1 "R" haltState),
    state (entry 0 "R" 2) (entry 1 "R" 1),
    state (entry 1 "L" 2) (entry 1 "L" 0)]
  halting := ⟨List.replicate 3 (.int 1), .int 1, List.replicate 2 (.int 1)⟩
  steps := 14

/-- The champion of four states. -/
def fourStates : BusyBeaver where
  name := "bb-4-2"
  table := .tuple [
    state (entry 1 "R" 1) (entry 1 "L" 1),
    state (entry 1 "L" 0) (entry 0 "L" 2),
    state (entry 1 "R" haltState) (entry 1 "L" 3),
    state (entry 1 "R" 3) (entry 0 "R" 0)]
  halting := ⟨List.replicate 1 (.int 1), .int 0, List.replicate 12 (.int 1)⟩
  steps := 107

/-- The champions, sorted by name. -/
def all : List BusyBeaver := [threeStates, fourStates]

/-- The champion of a name, which is looked up as any datum would be. -/
def find (name : Datum) : Except Fault BusyBeaver :=
  match name.unhashable? with
  | some type => .error (.unhashable type)
  | none =>
    match all.find? fun beaver => name.equals (.text beaver.name) with
    | some beaver => .ok beaver
    | none => .error (.unknownKey name)

end BusyBeaver

end Metered
