/-!
# Binary Floating Point

The numbers of the 64-bit binary format, each as an exact value: `mantissa * 2 ^ exponent` with a
sign, an infinity, or no number at all. Nothing is computed in the format; a number is only read,
shown and compared, and all of it in exact integer arithmetic.

* `Binary64.ofRatio` — the number nearest to a ratio, a tie going to the even mantissa;
* `integer?`, `floor?`, `ceiling?`, `truncate?` — the integers at and next to a number.
-/

namespace Metered

/-- A number of the 64-bit binary format. A finite number is canonical: its mantissa has 53 bits, or
fewer and then its exponent is `-1074`. -/
inductive Binary64 where
  | notANumber
  | infinite (negative : Bool)
  | finite (negative : Bool) (mantissa : Nat) (exponent : Int)
  deriving DecidableEq, Repr, Inhabited

namespace Binary64

/-! ### Rounding -/

/-- The integer nearest to `num / den`, a tie going to the even one. -/
def roundHalfEven (num den : Nat) : Nat :=
  let low := num / den
  let rest := 2 * (num % den)
  if rest < den then low
  else if den < rest then low + 1
  else low + low % 2

/-- The ratio `num / den` divided by `2 ^ q`, as a numerator and a denominator. -/
def scale (num den : Nat) (q : Int) : Nat × Nat :=
  if 0 ≤ q then (num, den <<< q.toNat) else (num <<< (-q).toNat, den)

/-- The least mantissa of 53 bits. -/
def leastMantissa : Nat := 0x10000000000000

/-- The exponent at which `num / den` has a mantissa of 53 bits, never below `-1074`. -/
def exponentOf (num den : Nat) : Int :=
  let estimate : Int := (Nat.log2 num : Int) - (Nat.log2 den : Int) - 52
  let (n, d) := scale num den estimate
  max (-1074) (if n < d * leastMantissa then estimate - 1 else estimate)

/-- The number nearest to `num / den` with the given sign, for a positive `den`. -/
def ofRatio (negative : Bool) (num den : Nat) : Binary64 :=
  if num = 0 then finite negative 0 (-1074)
  else
    let q := exponentOf num den
    let (n, d) := scale num den q
    let m := roundHalfEven n d
    let (m, q) := if m = 2 * leastMantissa then (leastMantissa, q + 1) else (m, q)
    if 971 < q then infinite negative else finite negative m q

/-! ### Integers at and next to a number -/

/-- The magnitude `mantissa * 2 ^ exponent` as a quotient and a flag for a fraction left over. -/
def wholePart (mantissa : Nat) (exponent : Int) : Nat × Bool :=
  if 0 ≤ exponent then (mantissa <<< exponent.toNat, false)
  else
    let d := 1 <<< (-exponent).toNat
    (mantissa / d, mantissa % d != 0)

/-- The number cut off towards zero. -/
def truncate? : Binary64 → Option Int
  | finite negative m q =>
    let whole : Int := (wholePart m q).1
    some (if negative then -whole else whole)
  | _ => none

/-- The integer that a number equals, if it does. -/
def integer? : Binary64 → Option Int
  | finite negative m q => if (wholePart m q).2 then none else (finite negative m q).truncate?
  | _ => none

/-- The greatest integer that is not above a number. -/
def floor? : Binary64 → Option Int
  | finite negative m q =>
    let (whole, fraction) := wholePart m q
    some (if negative then -(whole : Int) - (if fraction then 1 else 0) else whole)
  | _ => none

/-- The least integer that is not below a number. -/
def ceiling? : Binary64 → Option Int
  | finite negative m q =>
    let (whole, fraction) := wholePart m q
    some (if negative then -(whole : Int) else whole + (if fraction then 1 else 0))
  | _ => none

/-- Equality of numbers: the two zeros are equal and what is no number equals nothing. -/
def equals : Binary64 → Binary64 → Bool
  | notANumber, _ => false
  | finite _ 0 _, finite _ 0 _ => true
  | x, y => x == y

end Binary64

end Metered
