import Metered.Binary64.Basic

/-!
# Floating-Point Arithmetic

Sums, differences and the order of numbers of the 64-bit binary format. A sum is computed exactly
and then rounded once; the order is that of the exact values.

* `Binary64.ofInt?` — the number nearest to an integer, unless the integer is out of range;
* `Binary64.add`, `Binary64.subtract` — the number nearest to a sum or a difference;
* `Binary64.isBelow` — the strict order, to which no number at all does not belong.
-/

namespace Metered.Binary64

/-- The number nearest to an integer, unless the integer is too large for the format. -/
def ofInt? (n : Int) : Option Binary64 :=
  match ofRatio (n < 0) n.natAbs 1 with
  | infinite _ => none
  | x => some x

/-- A number with the other sign. -/
def negate : Binary64 → Binary64
  | notANumber => notANumber
  | infinite negative => infinite !negative
  | finite negative m q => finite (!negative) m q

/-- The value of a finite number, counted in units of `2 ^ unit` for a `unit` that is not above the
exponent. -/
def countIn (unit : Int) (negative : Bool) (mantissa : Nat) (exponent : Int) : Int :=
  let magnitude : Int := (mantissa <<< (exponent - unit).toNat : Nat)
  if negative then -magnitude else magnitude

/-- The number nearest to `count * 2 ^ unit`; a zero takes the given sign. -/
def ofCount (zeroIsNegative : Bool) (count unit : Int) : Binary64 :=
  if count = 0 then finite zeroIsNegative 0 (-1074)
  else
    let (num, den) := scale count.natAbs 1 (-unit)
    ofRatio (count < 0) num den

/-- The number nearest to a sum. A sum of zero is negative only if both terms are. -/
def add : Binary64 → Binary64 → Binary64
  | notANumber, _ | _, notANumber => notANumber
  | infinite a, infinite b => if a = b then infinite a else notANumber
  | infinite a, _ => infinite a
  | _, infinite b => infinite b
  | finite a m p, finite b n q =>
    let unit := min p q
    ofCount (a && b) (countIn unit a m p + countIn unit b n q) unit

/-- The number nearest to a difference. -/
def subtract (x y : Binary64) : Binary64 :=
  x.add y.negate

/-- Whether a number is below another one. -/
def isBelow : Binary64 → Binary64 → Bool
  | notANumber, _ | _, notANumber => false
  | infinite a, infinite b => a && !b
  | infinite a, _ => a
  | _, infinite b => !b
  | finite a m p, finite b n q =>
    let unit := min p q
    countIn unit a m p < countIn unit b n q

end Metered.Binary64
