import Metered.Text.Blank

/-!
# Integer Numerals

How an integer is read from a text: white space around it, at most one sign, then decimal digits of
any scripts, where a single underscore may stand between two digits.

* `Numeral.value?` — the value of a row of digits;
* `readInteger` — the value of the whole text, or why it has none.

A numeral of very many digits is not read, even where more follows it than may follow. Only reading
has this limit: integers are taken to be written with any number of digits.
-/

namespace Metered.Text

/-- Why a text denotes no integer that is read. -/
inductive NumeralFault where
  /-- It is no numeral. -/
  | malformed
  /-- It begins with a numeral of too many digits. -/
  | tooLong (digits : Nat)
  deriving DecidableEq, Repr, Inhabited

namespace Numeral

/-- The value of a row of digits that continues a numeral with value `n`. -/
def continue? (n : Nat) : List Char → Option Nat
  | [] => some n
  | '_' :: c :: rest => (digitValue? c).bind fun d => continue? (10 * n + d) rest
  | c :: rest => (digitValue? c).bind fun d => continue? (10 * n + d) rest

/-- The value of a nonempty row of digits. -/
def value? : List Char → Option Nat
  | [] => none
  | c :: rest => (digitValue? c).bind fun d => continue? d rest

/-- The most digits that are read. -/
def maxDigits : Nat := 4300

/-- Whether a character can be part of a row of digits. -/
def isPart (c : Char) : Bool :=
  c == '_' || (digitValue? c).isSome

/-- The value of a numeral without a sign, which only white space may follow. -/
def magnitude (text : List Char) : Except NumeralFault Nat :=
  let numeral := text.takeWhile isPart
  let digits := numeral.countP (· != '_')
  match value? numeral with
  | none => .error .malformed
  | some n =>
    if maxDigits < digits then .error (.tooLong digits)
    else if (text.dropWhile isPart).all isWhiteSpace then .ok n
    else .error .malformed

end Numeral

/-- The integer that a text denotes. -/
def readInteger (text : String) : Except NumeralFault Int :=
  match text.toList.dropWhile isWhiteSpace with
  | '-' :: numeral => (Numeral.magnitude numeral).map fun n => -(n : Int)
  | '+' :: numeral => (Numeral.magnitude numeral).map Int.ofNat
  | numeral => (Numeral.magnitude numeral).map Int.ofNat

end Metered.Text
