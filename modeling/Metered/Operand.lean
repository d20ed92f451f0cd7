import Metered.Tank

/-!
# Operands

The check that every operation on naturals makes of its operands: an operand must be an integer and
must not be below zero. A truth value is no integer here.
-/

namespace Metered.Operand

/-- The natural number that an operand of `op` is. -/
def natural (op : String) (operand : Datum) : Except Fault Nat :=
  match operand with
  | .int n => if n < 0 then .error (.negative op n) else .ok n.toNat
  | _ => .error (.notNatural op operand)

end Metered.Operand
