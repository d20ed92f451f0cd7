import Metered.Sequence

/-!
# Unary Arithmetic

A number is the length of a sequence of cells. `tally` makes the sequence, addition joins two of
them, subtraction pops cells from one, and all else counts how often these two are done. Every cell
that is grown, moved or popped and every round of a loop costs one unit.

Negative numbers have no sequence: `subtract` stops at zero.

The loops of `divide`, `divides` and `isPrime` go on until a test fails. Each takes an upper bound
on its rounds, which it never reaches: a round of division takes at least one cell away, and a trial
divisor is larger than the rounds before it.
-/

namespace Metered.Unary

/-! ### Sequences for numbers -/

/-- Add cells to a sequence; all cells being alike, the end at which they are added does not
show. -/
def grow (cells : List Nat) : Nat → Derivation (List Nat)
  | 0 => pure cells
  | n + 1 => do
    burn 1
    grow (0 :: cells) n

/-- The sequence of `n` cells. -/
def tally (n : Nat) : Derivation (List Nat) :=
  grow [] n

/-- Pop cells from a sequence; popping an empty one does nothing. -/
def shrink (cells : List Nat) : Nat → Derivation (List Nat)
  | 0 => pure cells
  | n + 1 => do
    burn 1
    shrink cells.tail n

/-! ### The four operations -/

/-- The sum. -/
def add (a b : Nat) : Derivation Nat := do
  let first ← tally a
  let second ← tally b
  let joined ← Sequence.join first second
  pure joined.length

/-- The difference, or zero if it would be negative. -/
def subtract (a b : Nat) : Derivation Nat := do
  let cells ← tally a
  let rest ← shrink cells b
  pure rest.length

/-- Whether `a` is below `b`: something is left of `b` once `a` is taken away. -/
def isLess (a b : Nat) : Derivation Bool := do
  let rest ← subtract b a
  pure (rest != 0)

/-- Add `a` to a total a number of times. -/
def addTimes (a total : Nat) : Nat → Derivation Nat
  | 0 => pure total
  | n + 1 => do
    burn 1
    let sum ← add a total
    addTimes a sum n

/-- The product. -/
def multiply (a b : Nat) : Derivation Nat :=
  if a = 0 ∨ b = 0 then pure 0 else addTimes a a (b - 1)

/-- Take `b` away from a remainder until no whole `b` is left, counting on from `count`. -/
def countParts (b : Nat) : (rounds remainder count : Nat) → Derivation Nat
  | 0, _, count => pure count
  | rounds + 1, remainder, count => do
    burn 1
    if remainder = b then pure (count + 1)
    else if ← isLess remainder b then pure count
    else do
      let rest ← subtract remainder b
      countParts b rounds rest (count + 1)

/-- The quotient, rounded down. -/
def divide (a b : Nat) : Derivation Nat :=
  if b = 0 then throw (.divisionByZero "divide") else countParts b (a + 1) a 0

/-! ### Divisibility -/

/-- Take `a` away from a remainder until it equals `a` or is below it. -/
def comesOut (a : Nat) : (rounds remainder : Nat) → Derivation Bool
  | 0, _ => pure false
  | rounds + 1, remainder => do
    burn 1
    if remainder = a then pure true
    else if ← isLess remainder a then pure false
    else do
      let rest ← subtract remainder a
      comesOut a rounds rest

/-- Whether `a` divides `b`. -/
def divides (a b : Nat) : Derivation Bool :=
  if a = 0 then throw (.divisionByZero "divides")
  else if b = 0 then pure true
  else comesOut a (b + 1) b

/-- Whether two divides `n`. -/
def isEven (n : Nat) : Derivation Bool :=
  divides 2 n

/-- Try the divisors `d`, `d + 2` and so on until one divides `n` or its square is above `n`. -/
def trialDivision (n : Nat) : (rounds d : Nat) → Derivation Bool
  | 0, _ => pure true
  | rounds + 1, d => do
    burn 1
    let square ← multiply d d
    if ← isLess n square then pure true
    else if ← divides d n then pure false
    else do
      let next ← add d 2
      trialDivision n rounds next

/-- Whether `n` is prime: the numbers below four are told apart directly, of all others the even
ones are excluded and the odd ones tried from three on. -/
def isPrime (n : Nat) : Derivation Bool :=
  if n < 2 then pure false
  else if n < 4 then pure true
  else do
    if ← isEven n then pure false else trialDivision n n 3

end Metered.Unary
