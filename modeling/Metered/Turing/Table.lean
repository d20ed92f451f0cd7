import Metered.Turing.Instruction

/-!
# Transition Tables

A machine is described by a table of its states in order, each with an entry for the bits 0 and 1.

A table arrives as plain data: states may be dictionaries or sequences, entries transitions or
triples, directions words. `Table.ofDatum` checks all of it and reports the first violation in the
order of states, bits and fields; `Table.toDatum` writes a checked table in its one normal form.

A table that consists of dictionaries of transitions throughout is taken as it is
(`Table.ofLiteral`). Nothing in it has been checked, so every look-up can fail.
-/

namespace Metered

/-- A checked state: what to do on a zero and on a one. -/
structure State where
  onZero : Instruction
  onOne : Instruction
  deriving DecidableEq, Repr

namespace State

/-- The entry for a bit of the state with a number, in a table of `count` states. -/
def entry (count number : Nat) (raw : Datum) (bit : Bool) : Except Fault Instruction :=
  let fault := fun cause => Fault.undefinedTransition cause (.int number) (.ofBit bit)
  match raw.index? (.ofBit bit) with
  | none => .error (fault .missing)
  | some found => (Instruction.ofDatum count found).mapError fault

/-- The state with a number, in a table of `count` states. -/
def ofDatum (count number : Nat) (raw : Datum) : Except Fault State := do
  let onZero ← entry count number raw false
  let onOne ← entry count number raw true
  pure ⟨onZero, onOne⟩

/-- The datum of a checked state. -/
def toDatum (state : State) : Datum :=
  .dict [(.int 0, state.onZero.toTransition.toDatum), (.int 1, state.onOne.toTransition.toDatum)]

end State

/-- A checked table. -/
structure Table where
  states : List State
  deriving DecidableEq, Repr

namespace Table

/-- The states of a table from the one with a number on, in a table of `count` states. -/
def statesOfData (count number : Nat) : List Datum → Except Fault (List State)
  | [] => pure []
  | raw :: rest => do
    let state ← State.ofDatum count number raw
    let states ← statesOfData count (number + 1) rest
    pure (state :: states)

/-- The checked table of a datum, or the first thing wrong with it. -/
def ofDatum (raw : Datum) : Except Fault Table :=
  match raw.items? with
  | none => .error (.unsized raw.typeName)
  | some [] => .error (.undefinedTransition .empty (.int 0) .null)
  | some states => (statesOfData states.length 0 states).map Table.mk

/-- The normal form of a checked table. -/
def toDatum (table : Table) : Datum :=
  .tuple (table.states.map State.toDatum)

/-! ### Tables taken as they are -/

/-- Whether a datum is an entry in normal form. -/
def isTransition : Datum → Bool
  | .transition .. => true
  | _ => false

/-- Whether a state is a dictionary of transitions. -/
def isTransitionDict : Datum → Bool
  | .dict entries => entries.all fun entry => isTransition entry.2
  | _ => false

/-- Whether a table is a tuple of dictionaries of transitions. -/
def isLiteral : Datum → Bool
  | .tuple states => states.all isTransitionDict
  | _ => false

/-- A table as look-ups need it: as it is if it consists of dictionaries of transitions, otherwise
checked and in normal form. -/
def ofLiteral (raw : Datum) : Except Fault Datum :=
  if isLiteral raw then .ok raw else (ofDatum raw).map toDatum

end Table

end Metered
