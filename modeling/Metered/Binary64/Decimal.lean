import Metered.Binary64.Basic

/-!
# Floating-Point Numerals

Reading and showing the numbers of the 64-bit binary format in decimal.

* `Binary64.ofText?` — the number nearest to a decimal numeral;
* `Binary64.shortest` — the fewest decimal digits that read back as a number, and of those the
  nearest to it, a tie going to the even digit;
* `Binary64.toText` — these digits, positionally from `0.0001` up to `10 ^ 16`, otherwise with an
  exponent of at least two digits.
-/

namespace Metered.Binary64

/-- Ten to a power. -/
def powerOfTen (n : Nat) : Nat :=
  Nat.pow 10 n

/-! ### Reading -/

/-- The value of a row of ASCII digits that continues a numeral with value `n`. -/
def digitsFrom? (n : Nat) : List Char → Option Nat
  | [] => some n
  | c :: rest => if c.isDigit then digitsFrom? (10 * n + (c.toNat - 48)) rest else none

/-- The value of a nonempty row of ASCII digits. -/
def digits? (text : List Char) : Option Nat :=
  if text.isEmpty then none else digitsFrom? 0 text

/-- The value of a row of ASCII digits with an optional sign. -/
def signedDigits? : List Char → Option Int
  | '-' :: text => (digits? text).map fun n => -(n : Int)
  | '+' :: text => (digits? text).map Int.ofNat
  | text => (digits? text).map Int.ofNat

/-- The number nearest to `digits * 10 ^ exponent`. Outside the range of the format the power of
ten is not computed. -/
def ofDecimal (negative : Bool) (digits : Nat) (exponent : Int) : Binary64 :=
  if digits = 0 then finite negative 0 (-1074)
  else
    let magnitude : Int := (Nat.toDigits 10 digits).length + exponent
    if 400 < magnitude then infinite negative
    else if magnitude < -400 then finite negative 0 (-1074)
    else if 0 ≤ exponent then ofRatio negative (digits * powerOfTen exponent.toNat) 1
    else ofRatio negative digits (powerOfTen (-exponent).toNat)

/-- The number that an unsigned text denotes: a name, or digits with an optional point and an
optional exponent. -/
def ofUnsigned? (negative : Bool) (text : List Char) : Option Binary64 :=
  if text = ['n', 'a', 'n'] then some notANumber
  else if text = ['i', 'n', 'f'] || text = "infinity".toList then some (infinite negative)
  else
    let significand := text.takeWhile (· != 'e')
    let tail := text.dropWhile (· != 'e')
    let whole := significand.takeWhile (· != '.')
    let fraction := (significand.dropWhile (· != '.')).drop 1
    (digits? (whole ++ fraction)).bind fun digits =>
      (if tail.isEmpty then some 0 else signedDigits? (tail.drop 1)).map fun exponent =>
        ofDecimal negative digits (exponent - fraction.length)

/-- The number that a text denotes, in letters of either case. -/
def ofText? (text : String) : Option Binary64 :=
  match text.toList.map Char.toLower with
  | '-' :: rest => ofUnsigned? true rest
  | '+' :: rest => ofUnsigned? false rest
  | rest => ofUnsigned? false rest

/-! ### Showing -/

/-- The exponent of the leading decimal digit of a positive `num / den` that is at least
`10 ^ (-330)`. -/
def leadingExponent (num den : Nat) : Int :=
  (Nat.toDigits 10 (num * powerOfTen 330 / den)).length - 331

/-- The decimal `n * 10 ^ e` with up to `count` trailing zeros of `n` moved to the exponent. -/
def dropZeros : (count : Nat) → Nat → Int → Nat × Int
  | 0, n, e => (n, e)
  | count + 1, n, e => if n % 10 = 0 then dropZeros count (n / 10) (e + 1) else (n, e)

/-- The decimal of at most `count` digits that lies in the interval of ratios rounding to
`mantissa * 2 ^ exponent` and is nearest to it, if there is one; of two equally near the even one.
All is measured in quarters of the last binary place. -/
def nearestDecimal? (mantissa : Nat) (exponent : Int) (count : Nat) : Option (Nat × Int) :=
  let center := 4 * mantissa
  let low := if mantissa = leastMantissa && exponent != -1074 then center - 1 else center - 2
  let high := center + 2
  let (num, den) := scale center 1 (2 - exponent)
  let e := leadingExponent num den + 1 - count
  -- `n * 10 ^ e` is `n * unit / part` quarters
  let (part, unit) := scale 1 1 (2 - exponent)
  let (unit, part) := if 0 ≤ e then (unit * powerOfTen e.toNat, part)
    else (unit, part * powerOfTen (-e).toNat)
  let inside := fun n =>
    if mantissa % 2 = 0 then low * part ≤ n * unit && n * unit ≤ high * part
    else low * part < n * unit && n * unit < high * part
  let below := center * part / unit
  let above := below + 1
  let twice := 2 * (center * part)
  let middle := (below + above) * unit
  let belowIsNearer := twice < middle || (twice == middle && below % 2 == 0)
  if inside below && (belowIsNearer || !inside above) then some (below, e)
  else if inside above then some (above, e)
  else none

/-- The fewest decimal digits that read back as `mantissa * 2 ^ exponent`, with the exponent of the
last one. Seventeen digits always read back. -/
def shortest (mantissa : Nat) (exponent : Int) : Nat × Int :=
  match (List.range 17).findSome? fun k => nearestDecimal? mantissa exponent (k + 1) with
  | some (n, e) => dropZeros 17 n e
  | none => (0, 0)

/-- The decimal `digits * 10 ^ e`, where the leading digit has the exponent `lead`. -/
def decimalText (digits : List Char) (e lead : Int) : List Char :=
  if -4 ≤ lead && lead < 16 then
    if 0 ≤ e then digits ++ List.replicate e.toNat '0' ++ ['.', '0']
    else if 0 ≤ lead then
      digits.take (lead.toNat + 1) ++ '.' :: digits.drop (lead.toNat + 1)
    else ['0', '.'] ++ List.replicate (-lead - 1).toNat '0' ++ digits
  else
    let power := Nat.toDigits 10 lead.natAbs
    digits.take 1 ++ (if digits.length = 1 then [] else '.' :: digits.drop 1) ++
      ['e', if lead < 0 then '-' else '+'] ++ List.replicate (2 - power.length) '0' ++ power

/-- The text of a number. -/
def toText : Binary64 → String
  | notANumber => "nan"
  | infinite negative => if negative then "-inf" else "inf"
  | finite negative mantissa exponent =>
    let magnitude :=
      if mantissa = 0 then ['0', '.', '0']
      else
        let (n, e) := shortest mantissa exponent
        let digits := Nat.toDigits 10 n
        decimalText digits e (e + digits.length - 1)
    String.ofList (if negative then '-' :: magnitude else magnitude)

end Metered.Binary64
