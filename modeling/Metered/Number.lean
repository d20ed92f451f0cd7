import Metered.Binary64.Arithmetic
import Metered.Datum.Basic

/-!
# Numbers Among Data

Three kinds of data count as numbers: truth values, integers and floating-point numbers. Amounts,
limits and widths are given as such data, and each keeps its kind as long as it is only shown.

Sums and differences of truth values and integers are exact integers. Where a floating-point number
takes part, both terms are brought into its format first, which an integer may be too large for.
Comparisons are exact throughout.
-/

namespace Metered

/-- A datum that counts as a number. -/
inductive Number where
  | bit (value : Bool)
  | int (value : Int)
  | real (value : Binary64)
  deriving DecidableEq, Repr, Inhabited

namespace Number

instance (n : Nat) : OfNat Number n := ⟨int n⟩

/-- The datum that a number is. -/
def toDatum : Number → Datum
  | bit b => .bool b
  | int n => .int n
  | real x => .real x

/-- The name of a number's type. -/
def typeName (x : Number) : String :=
  x.toDatum.typeName

/-! ### Values -/

/-- The value of a number, where a truth value is one or zero. -/
def value : Number → Int ⊕ Binary64
  | bit b => .inl (if b then 1 else 0)
  | int n => .inl n
  | real x => .inr x

/-- The greatest integer that is not above a finite number. -/
def floor? (x : Number) : Option Int :=
  x.value.elim some Binary64.floor?

/-- The least integer that is not below a finite number. -/
def ceiling? (x : Number) : Option Int :=
  x.value.elim some Binary64.ceiling?

/-- A number in the floating-point format, unless it is too large for it. -/
def toReal? (x : Number) : Option Binary64 :=
  x.value.elim Binary64.ofInt? some

/-! ### Arithmetic -/

/-- The sum, unless an integer is too large to be added to a floating-point number. -/
def add? (x y : Number) : Option Number :=
  match x.value, y.value with
  | .inl m, .inl n => some (int (m + n))
  | _, _ => x.toReal?.bind fun a => y.toReal?.map fun b => real (a.add b)

/-- The difference, unless an integer is too large to be combined with a floating-point number. -/
def subtract? (x y : Number) : Option Number :=
  match x.value, y.value with
  | .inl m, .inl n => some (int (m - n))
  | _, _ => x.toReal?.bind fun a => y.toReal?.map fun b => real (a.subtract b)

/-! ### Order -/

/-- Whether an integer is below a floating-point number. -/
def isIntBelow (n : Int) : Binary64 → Bool
  | .notANumber => false
  | .infinite negative => !negative
  | x => x.ceiling?.any (n < ·)

/-- Whether a floating-point number is below an integer. -/
def isBelowInt (x : Binary64) (n : Int) : Bool :=
  match x with
  | .notANumber => false
  | .infinite negative => negative
  | x => x.floor?.any (· < n)

/-- Whether a number is below another one. -/
def isBelow (x y : Number) : Bool :=
  match x.value, y.value with
  | .inl m, .inl n => m < n
  | .inl m, .inr b => isIntBelow m b
  | .inr a, .inl n => isBelowInt a n
  | .inr a, .inr b => a.isBelow b

/-- Whether a number is an integer or above it. -/
def isAtLeast (x : Number) (n : Int) : Bool :=
  match x.value with
  | .inl m => n ≤ m
  | .inr (.infinite negative) => !negative
  | .inr a => a.floor?.any (n ≤ ·)

end Number

/-- A datum that counts as a number. -/
def Datum.number? : Datum → Option Number
  | bool b => some (.bit b)
  | int n => some (.int n)
  | real x => some (.real x)
  | _ => none

end Metered
