import Metered.Datum.Basic
import Metered.Fault

/-!
# Elementary Rules

A rule of an elementary cellular automaton says what a cell becomes from the cell before it, itself
and the cell after it. Its number holds the eight outcomes: the bit of weight `2 ^ (4 p + 2 c + n)`
is the outcome for the neighbourhood `p`, `c`, `n`.

A row stands on an infinite background of zeros, so only rules that keep the background are
admitted: the outcome for three zeros is zero, that is, the number is even (`Rule.output_zeros`).
-/

namespace Metered

/-- An elementary rule that keeps a background of zeros. -/
structure Rule where
  number : Nat
  number_lt : number < 256 := by decide
  number_even : number % 2 = 0 := by decide
  deriving DecidableEq, Repr

namespace Rule

/-- Rule 110, the rule that is meant where none is named. -/
def rule110 : Rule := { number := 110 }

instance : Inhabited Rule := ⟨rule110⟩

/-- The number of the neighbourhood of three bits, read as binary digits. -/
def index (prev cur next : Bool) : Nat :=
  4 * prev.toNat + 2 * cur.toNat + next.toNat

/-- What a cell becomes from the cell before it, itself and the cell after it. -/
def output (rule : Rule) (prev cur next : Bool) : Bool :=
  rule.number.testBit (index prev cur next)

/-- The background stays zero. -/
theorem output_zeros (rule : Rule) : rule.output false false false = false := by
  simp [output, index, Nat.testBit_zero, rule.number_even]

/-- The eight neighbourhoods, from three ones down to three zeros. -/
def neighbourhoods : List (Bool × Bool × Bool) := [
  (true, true, true), (true, true, false), (true, false, true), (true, false, false),
  (false, true, true), (false, true, false), (false, false, true), (false, false, false)]

/-- The outcomes for the eight neighbourhoods, in their order. -/
def outputs (rule : Rule) : List Bool :=
  neighbourhoods.map fun (prev, cur, next) => rule.output prev cur next

/-- Whether a live cell at the left end brings the cell before it to life. -/
def growsLeft (rule : Rule) : Bool :=
  rule.output false false true

/-- Whether a live cell at the right end brings the cell after it to life. -/
def growsRight (rule : Rule) : Bool :=
  rule.output true false false

/-! ### Rules and cells from data -/

/-- The rule of a number, which must be an integer in `0..255` and even. -/
def ofDatum : Datum → Except Fault Rule
  | .int n =>
    if 0 ≤ n ∧ n < 256 then
      if h : n.toNat < 256 ∧ n.toNat % 2 = 0 then .ok ⟨n.toNat, h.1, h.2⟩
      else .error (.ruleLightsBackground n.toNat)
    else .error (.ruleOutOfRange n)
  | d => .error (.ruleNotInteger d)

/-- What a cell becomes where nothing is known about the three cells yet: they must be fit to be
looked up and equal to bits. -/
def apply (rule : Rule) (prev cur next : Datum) : Except Fault Datum :=
  match (Datum.tuple [prev, cur, next]).unhashable? with
  | some type => .error (.unhashable type)
  | none =>
    match prev.bit?, cur.bit?, next.bit? with
    | some p, some c, some n => .ok (.ofBit (rule.output p c n))
    | _, _, _ => .error (.notNeighbourhood prev cur next)

end Rule

end Metered
