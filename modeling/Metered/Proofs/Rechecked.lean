import Metered.Proofs.NormalTable
import Metered.Proofs.UnaryCost

/-!
# Operands Checked at Every Depth

The operations of `Metered.Unary` are built from one another on natural numbers, and only a query
checks what it is given. Here every operation takes data and checks its operands, wherever it is
called from: a product checks both operands of each of its sums, and a sum the operand of each
sequence that it grows. What an operation leaves to the next one is data again.

None of these checks can fail but the first ones: `derive_eq_rechecked` says that a query is
answered by the very same derivation.

## Main results

* `multiply_natCast`, `divide_natCast`, `divides_natCast`, `isPrime_natCast`: on natural operands
  the checks within an operation succeed;
* `derive_eq_rechecked`: queries with all checks repeated.
-/

open Metered.Derivation

namespace Metered

/-! ### The check of an operand -/

/-- A natural number: an integer, and so no truth value, that is not below zero. -/
def Datum.IsNatural (d : Datum) : Prop :=
  ∃ n : ℕ, d = .int n

/-- **What is wrong with an operand** of `op`, as a fault and its kind: what is no integer, a truth
value among others, has the wrong type, and a negative integer the wrong value. -/
inductive Operand.IsUnfit (op : String) : Datum → FaultKind → Fault → Prop
  | notInteger {d : Datum} (h : ∀ n, d ≠ .int n) : IsUnfit op d .wrongType (.notNatural op d)
  | negative {n : ℤ} (h : n < 0) : IsUnfit op (.int n) .wrongValue (.negative op n)

namespace Operand

/-- An operand is a natural number, or something is wrong with it. -/
theorem natural_cases (op : String) (d : Datum) :
    d.IsNatural ∨ ∃ kind fault, IsUnfit op d kind fault := by
  by_cases hint : ∃ n, d = .int n
  · obtain ⟨n, rfl⟩ := hint
    obtain hneg | hnonneg := lt_or_ge n 0
    · exact .inr ⟨_, _, .negative hneg⟩
    · exact .inl ⟨n.toNat, by rw [Int.toNat_of_nonneg hnonneg]⟩
  · exact .inr ⟨_, _, .notInteger (not_exists.mp hint)⟩

/-- The check of an unfit operand. -/
theorem IsUnfit.natural_eq {op : String} {d : Datum} {kind : FaultKind} {fault : Fault}
    (h : IsUnfit op d kind fault) : natural op d = .error fault := by
  cases h with
  | notInteger h =>
      cases d with
      | int n => exact absurd rfl (h n)
      | _ => rfl
  | negative h => exact if_pos h

/-- The fault of an unfit operand is of its kind. -/
theorem IsUnfit.report_kind {op : String} {d : Datum} {kind : FaultKind} {fault : Fault}
    (h : IsUnfit op d kind fault) : fault.report.kind = kind := by
  cases h <;> rfl

end Operand

namespace Query

variable {α : Type}

/-- A natural operand passes its check. -/
theorem onNatural_natCast (op : String) (n : ℕ) (next : ℕ → Derivation α) :
    onNatural op (.int n) next = next n := by
  rw [onNatural, Operand.natural_natCast]
  exact pure_bind n next

/-- Two natural operands pass their checks. -/
theorem onNaturals_natCast (op : String) (m n : ℕ) (next : ℕ → ℕ → Derivation α) :
    onNaturals op (.int m) (.int n) next = next m n := by
  rw [onNaturals, Operand.natural_natCast, Operand.natural_natCast]
  exact (pure_bind m _).trans (pure_bind n _)

end Query

namespace Rechecked

open Query (ofNat onNatural onNaturals onNatural_natCast onNaturals_natCast)

/-! ### Operations on data -/

/-- The sequence of `n` cells. -/
def tally (n : Datum) : Derivation (List ℕ) :=
  onNatural "pad" n Unary.tally

/-- The sum. -/
def add (a b : Datum) : Derivation Datum :=
  onNaturals "add" a b fun _ _ => do
    let first ← tally a
    let second ← tally b
    let joined ← Sequence.join first second
    pure (ofNat joined.length)

/-- The difference, or zero if it would be negative. -/
def subtract (a b : Datum) : Derivation Datum :=
  onNaturals "subtract" a b fun _ n => do
    let cells ← tally a
    let rest ← Unary.shrink cells n
    pure (ofNat rest.length)

/-- Whether `a` is below `b`. -/
def isLess (a b : Datum) : Derivation Bool := do
  let rest ← subtract b a
  pure (!(Datum.int 0).equals rest)

/-- Add `a` to a total a number of times. -/
def addTimes (a total : Datum) : ℕ → Derivation Datum
  | 0 => pure total
  | n + 1 => do
    burn 1
    let sum ← add a total
    addTimes a sum n

/-- The product. -/
def multiply (a b : Datum) : Derivation Datum :=
  onNaturals "multiply" a b fun m n =>
    if m = 0 ∨ n = 0 then pure (ofNat 0) else addTimes a a (n - 1)

/-- Take `b` away from a remainder until no whole `b` is left, counting on from `count`. -/
def countParts (b : Datum) : (rounds : ℕ) → (remainder : Datum) → (count : ℕ) → Derivation Datum
  | 0, _, count => pure (ofNat count)
  | rounds + 1, remainder, count => do
    burn 1
    if remainder.equals b then pure (ofNat (count + 1))
    else if ← isLess remainder b then pure (ofNat count)
    else do
      let rest ← subtract remainder b
      countParts b rounds rest (count + 1)

/-- The quotient, rounded down. -/
def divide (a b : Datum) : Derivation Datum :=
  onNaturals "divide" a b fun m n =>
    if n = 0 then throw (.divisionByZero "divide") else countParts b (m + 1) a 0

/-- Take `a` away from a remainder until it equals `a` or is below it. -/
def comesOut (a : Datum) : (rounds : ℕ) → (remainder : Datum) → Derivation Bool
  | 0, _ => pure false
  | rounds + 1, remainder => do
    burn 1
    if remainder.equals a then pure true
    else if ← isLess remainder a then pure false
    else do
      let rest ← subtract remainder a
      comesOut a rounds rest

/-- Whether `a` divides `b`. -/
def divides (a b : Datum) : Derivation Bool :=
  onNaturals "divides" a b fun m n =>
    if m = 0 then throw (.divisionByZero "divides")
    else if n = 0 then pure true
    else comesOut a (n + 1) b

/-- Whether two divides `n`. -/
def isEven (n : Datum) : Derivation Bool :=
  divides (.int 2) n

/-- Try the divisors `d`, `d + 2` and so on until one divides `n` or its square is above `n`. -/
def trialDivision (n : Datum) : (rounds : ℕ) → (d : Datum) → Derivation Bool
  | 0, _ => pure true
  | rounds + 1, d => do
    burn 1
    let square ← multiply d d
    if ← isLess n square then pure true
    else if ← divides d n then pure false
    else do
      let next ← add d (.int 2)
      trialDivision n rounds next

/-- Whether `n` is prime. -/
def isPrime (n : Datum) : Derivation Bool :=
  onNatural "is_prime" n fun m =>
    if m < 2 then pure false
    else if m < 4 then pure true
    else do
      if ← isEven n then pure false else trialDivision n m (.int 3)

/-! ### Operations on natural operands -/

theorem tally_natCast (n : ℕ) : tally (.int n) = Unary.tally n :=
  onNatural_natCast "pad" n Unary.tally

theorem add_natCast (a b : ℕ) : add (.int a) (.int b) = ofNat <$> Unary.add a b := by
  simp only [add, Unary.add, onNaturals_natCast, tally_natCast, map_bind, map_pure]

theorem subtract_natCast (a b : ℕ) :
    subtract (.int a) (.int b) = ofNat <$> Unary.subtract a b := by
  simp only [subtract, Unary.subtract, onNaturals_natCast, tally_natCast, map_bind, map_pure]

theorem equals_natCast (m n : ℕ) : Datum.equals (.int m) (.int n) = decide (m = n) := by
  have hiff : (n : ℤ) = m ↔ m = n := by omega
  simp only [Table.equals_int, Datum.integer?, Option.some_inj, hiff]

theorem isLess_natCast (a b : ℕ) : isLess (.int a) (.int b) = Unary.isLess a b := by
  have hzero (n : ℕ) : (!(Datum.int 0).equals (ofNat n)) = (n != 0) := by
    cases n <;> exact congrArg (! ·) (equals_natCast 0 _)
  simp only [isLess, Unary.isLess, subtract_natCast, bind_map_left, hzero]

theorem addTimes_natCast (a total n : ℕ) :
    addTimes (.int a) (.int total) n = ofNat <$> Unary.addTimes a total n := by
  induction n generalizing total with
  | zero => rfl
  | succ n ih =>
      have hnext (sum : ℕ) : addTimes (.int a) (ofNat sum) n = _ := ih sum
      simp only [addTimes, Unary.addTimes, add_natCast, bind_map_left, map_bind, hnext]

theorem multiply_natCast (a b : ℕ) :
    multiply (.int a) (.int b) = ofNat <$> Unary.multiply a b := by
  simp only [multiply, Unary.multiply, onNaturals_natCast, addTimes_natCast]
  split_ifs <;> rfl

theorem countParts_natCast (b rounds remainder count : ℕ) :
    countParts (.int b) rounds (.int remainder) count =
      ofNat <$> Unary.countParts b rounds remainder count := by
  induction rounds generalizing remainder count with
  | zero => rfl
  | succ rounds ih =>
      have hnext (rest : ℕ) : countParts (.int b) rounds (ofNat rest) (count + 1) = _ :=
        ih rest (count + 1)
      simp only [countParts, Unary.countParts, equals_natCast, isLess_natCast, subtract_natCast,
        bind_map_left, map_bind, hnext, decide_eq_true_eq]
      refine bind_congr fun _ => ?_
      split
      · rfl
      · rw [map_bind]
        refine bind_congr fun less => ?_
        split
        · rfl
        · rw [map_bind]

theorem divide_natCast (a b : ℕ) : divide (.int a) (.int b) = ofNat <$> Unary.divide a b := by
  simp only [divide, Unary.divide, onNaturals_natCast]
  split
  · rfl
  · exact countParts_natCast b (a + 1) a 0

theorem comesOut_natCast (a rounds remainder : ℕ) :
    comesOut (.int a) rounds (.int remainder) = Unary.comesOut a rounds remainder := by
  induction rounds generalizing remainder with
  | zero => rfl
  | succ rounds ih =>
      have hnext (rest : ℕ) : comesOut (.int a) rounds (ofNat rest) = _ := ih rest
      simp only [comesOut, Unary.comesOut, equals_natCast, isLess_natCast, subtract_natCast,
        bind_map_left, hnext, decide_eq_true_eq]

theorem divides_natCast (a b : ℕ) : divides (.int a) (.int b) = Unary.divides a b := by
  simp only [divides, Unary.divides, onNaturals_natCast, comesOut_natCast]

theorem isEven_natCast (n : ℕ) : isEven (.int n) = Unary.isEven n :=
  divides_natCast 2 n

theorem trialDivision_natCast (n rounds d : ℕ) :
    trialDivision (.int n) rounds (.int d) = Unary.trialDivision n rounds d := by
  induction rounds generalizing d with
  | zero => rfl
  | succ rounds ih =>
      have hnext (next : ℕ) : trialDivision (.int n) rounds (ofNat next) = _ := ih next
      have hless (square : ℕ) : isLess (.int n) (ofNat square) = _ := isLess_natCast n square
      have hadd : add (.int d) (.int 2) = _ := add_natCast d 2
      simp only [trialDivision, Unary.trialDivision, multiply_natCast, divides_natCast, hless, hadd,
        bind_map_left, hnext]

theorem isPrime_natCast (n : ℕ) : isPrime (.int n) = Unary.isPrime n := by
  have htrials : trialDivision (.int n) n (.int 3) = _ := trialDivision_natCast n n 3
  simp only [isPrime, Unary.isPrime, onNatural_natCast, isEven_natCast, htrials]

end Rechecked

/-! ### Queries -/

namespace Query

/-- The derivation that answers a query, with the operands of every operation within it checked
again. The queries on rows do so as they are: each generation is checked before it is carried on,
and each cell is looked up as a datum. -/
def rechecked : Query → Derivation Datum
  | tally n => (fun cells => .tuple (cells.map ofNat)) <$> Rechecked.tally n
  | add a b => Rechecked.add a b
  | subtract a b => Rechecked.subtract a b
  | isLess a b => .bool <$> Rechecked.isLess a b
  | multiply a b => Rechecked.multiply a b
  | divide a b => Rechecked.divide a b
  | divides a b => .bool <$> Rechecked.divides a b
  | isEven n => .bool <$> Rechecked.isEven n
  | isPrime n => .bool <$> Rechecked.isPrime n
  | query => query.derive

variable {α : Type}

/-- A function of what an operation on two checked operands yields. -/
theorem map_onNaturals {β : Type} (op : String) (a b : Datum) (f : ℕ → ℕ → Derivation α)
    (image : α → β) :
    image <$> onNaturals op a b f = onNaturals op a b fun m n => image <$> f m n := by
  simp only [onNaturals, map_bind]

/-- What follows on an operation on two checked operands. -/
theorem onNaturals_bind {β : Type} (op : String) (a b : Datum) (f : ℕ → ℕ → Derivation α)
    (next : α → Derivation β) :
    onNaturals op a b f >>= next = onNaturals op a b fun m n => f m n >>= next := by
  simp only [onNaturals, bind_assoc]

/-- An operation on one operand that checks it first is known from what it does on natural
numbers. -/
theorem onNatural_eq {op : String} {f : ℕ → Derivation α} {g : Datum → Derivation α}
    (hnatural : ∀ n : ℕ, g (.int n) = f n) {body : Datum → ℕ → Derivation α}
    (hchecks : ∀ d, g d = onNatural op d (body d)) (d : Datum) : onNatural op d f = g d := by
  obtain ⟨n, rfl⟩ | ⟨kind, fault, hunfit⟩ := Operand.natural_cases op d
  · rw [onNatural_natCast, hnatural]
  · rw [hchecks, onNatural, onNatural, hunfit.natural_eq]
    rfl

/-- An operation on two operands that checks them first, from left to right, is known from what it
does on natural numbers. -/
theorem onNaturals_eq {op : String} {f : ℕ → ℕ → Derivation α} {g : Datum → Datum → Derivation α}
    (hnatural : ∀ m n : ℕ, g (.int m) (.int n) = f m n)
    {body : Datum → Datum → ℕ → ℕ → Derivation α}
    (hchecks : ∀ a b, g a b = onNaturals op a b (body a b)) (a b : Datum) :
    onNaturals op a b f = g a b := by
  obtain ⟨m, rfl⟩ | ⟨kind, fault, hunfit⟩ := Operand.natural_cases op a
  · obtain ⟨n, rfl⟩ | ⟨kind, fault, hunfit⟩ := Operand.natural_cases op b
    · rw [onNaturals_natCast, hnatural]
    · rw [hchecks, onNaturals, onNaturals, Operand.natural_natCast, hunfit.natural_eq]
      rfl
  · rw [hchecks, onNaturals, onNaturals, hunfit.natural_eq]
    rfl

/-- **No check within an operation fails.** A query is answered by the same derivation if all its
operations check their operands again. -/
theorem derive_eq_rechecked (query : Query) : query.derive = query.rechecked := by
  cases query with
  | tally n => exact bind_pure_comp _ _
  | add a b =>
      refine (map_onNaturals "add" a b Unary.add ofNat).trans ?_
      exact onNaturals_eq Rechecked.add_natCast (fun _ _ => rfl) a b
  | subtract a b =>
      refine (map_onNaturals "subtract" a b Unary.subtract ofNat).trans ?_
      exact onNaturals_eq Rechecked.subtract_natCast (fun _ _ => rfl) a b
  | isLess a b =>
      -- the comparison checks its operands as the subtraction of `a` from `b` does
      have hless := onNaturals_eq (g := fun b a => Rechecked.isLess a b)
        (fun n m => Rechecked.isLess_natCast m n) (fun b a => onNaturals_bind "subtract" b a _ _)
      exact congrArg (Datum.bool <$> ·) (hless b a)
  | multiply a b =>
      refine (map_onNaturals "multiply" a b Unary.multiply ofNat).trans ?_
      exact onNaturals_eq Rechecked.multiply_natCast (fun _ _ => rfl) a b
  | divide a b =>
      refine (map_onNaturals "divide" a b Unary.divide ofNat).trans ?_
      exact onNaturals_eq Rechecked.divide_natCast (fun _ _ => rfl) a b
  | divides a b =>
      have hdivides := onNaturals_eq Rechecked.divides_natCast (fun _ _ => rfl)
      exact congrArg (Datum.bool <$> ·) (hdivides a b)
  | isEven n =>
      have heven := onNatural_eq Rechecked.isEven_natCast (fun _ => rfl)
      exact congrArg (Datum.bool <$> ·) (heven n)
  | isPrime n =>
      have hprime := onNatural_eq Rechecked.isPrime_natCast (fun _ => rfl)
      exact congrArg (Datum.bool <$> ·) (hprime n)
  | _ => rfl

end Query

end Metered
