import Metered.Turing.Table

/-!
# Look-Up

`Table.lookup` finds the entry of a table for a state and a bit where none of the three needs to be
what it should: the table may never have been checked, the state may be no state of it, and the bit
no bit. A state is found by its value, so a number that is no integer can lie in the range of the
table and yet have no entry.
-/

namespace Metered.Table

/-- The entry under an index of a state and a bit; each can be missing. -/
def entryAt (table state bit : Datum) : Except Fault Transition :=
  match (table.index? state).bind (·.index? bit) with
  | none => .error (.undefinedTransition .missing state bit)
  | some (.transition write move next) => .ok ⟨write, move, next⟩
  | some entry => .error (.undefinedTransition (.unvalidated entry) state bit)

/-- The entry of a table for a state and a bit. The state must be a number from zero up to below
the number of states; that number is asked for only if the state is not below zero. -/
def lookup (table state bit : Datum) : Except Fault Transition :=
  match state.number? with
  | none => .error (.notComparable "<=" "int" state.typeName)
  | some number =>
    if !number.isAtLeast 0 then .error (.undefinedTransition .outside state bit)
    else
      match table.size? with
      | none => .error (.unsized table.typeName)
      | some count =>
        if number.isBelow (.int count) then entryAt table state bit
        else .error (.undefinedTransition .outside state bit)

end Metered.Table
