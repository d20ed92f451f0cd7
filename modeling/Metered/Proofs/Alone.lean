import Mathlib.Tactic.SplitIfs
import Metered.Proofs.Cost
import Metered.Query

/-!
# Queries That Are Asked Alone

A query that is asked alone has a tank of its own. It is made once the operands are checked, and not
at all where the answer is plain from them: so a limit below zero, of which there is no tank, does
not show in such queries.

The derivation of a query makes the same checks once more, as it must on a tank that it shares with
others. Nothing comes of that: on every tank a derivation ends with what its opening comes to, if
that is a fault or an answer.

## Main results

* `Query.anticipates_derive`: a derivation ends with what its opening comes to;
* `Query.answer_of_ownTank`: a query with a tank of its own is answered by its derivation on it;
* `Query.answer_of_opening`: a query whose answer is not plain needs such a tank.
-/

namespace Metered.Query

/-! ### Openings of derivations -/

/-- **A derivation is anticipated** by what comes to a fault or to a value only if the derivation
does so, on every tank and without a cost. -/
def Anticipates {α : Type} (opening : Except Fault (Option α)) (derivation : Derivation α) :
    Prop :=
  match opening with
  | .error fault => derivation = throw fault
  | .ok (some value) => derivation = pure value
  | .ok none => True

variable {α β : Type}

/-- Derivations begin with checks. -/
theorem Anticipates.check_bind {check : Except Fault β} {opening : β → Except Fault (Option α)}
    {next : β → Derivation α} (h : ∀ b, Anticipates (opening b) (next b)) :
    Anticipates (check >>= opening) (liftM check >>= next) := by
  cases check with
  | error fault => rfl
  | ok b => exact h b

/-- Both operands are checked, whatever is made of the outcome. -/
theorem Anticipates.onNaturals {op : String} {a b : Datum}
    {opening : ℕ → ℕ → Except Fault (Option α)} {derivation : ℕ → ℕ → Derivation β} {f : β → α}
    (h : ∀ m n, Anticipates (opening m n) (f <$> derivation m n)) :
    Anticipates (checkNaturals op a b opening) (f <$> Query.onNaturals op a b derivation) := by
  simp only [Query.onNaturals, map_bind]
  exact .check_bind fun m => .check_bind fun n => h m n

/-- The operand is checked, whatever is made of the outcome. -/
theorem Anticipates.onNatural {op : String} {a : Datum} {opening : ℕ → Except Fault (Option α)}
    {derivation : ℕ → Derivation β} {f : β → α}
    (h : ∀ n, Anticipates (opening n) (f <$> derivation n)) :
    Anticipates (Operand.natural op a >>= opening) (f <$> Query.onNatural op a derivation) := by
  simp only [Query.onNatural, map_bind]
  exact .check_bind h

/-- **Openings.** A derivation ends with what its opening comes to. -/
theorem anticipates_derive (query : Query) : Anticipates query.opening query.derive := by
  cases query with
  | tally n =>
      simp only [derive, Query.onNatural, bind_assoc]
      exact .check_bind fun _ => trivial
  | add a b => exact .onNaturals fun _ _ => trivial
  | subtract a b => exact .onNaturals fun _ _ => trivial
  | isLess a b => exact .onNaturals fun _ _ => trivial
  | multiply a b =>
      refine .onNaturals fun m n => ?_
      rw [Unary.multiply]
      split_ifs <;> trivial
  | divide a b =>
      refine .onNaturals fun m n => ?_
      rw [Unary.divide]
      split_ifs <;> trivial
  | divides a b =>
      refine .onNaturals fun m n => ?_
      rw [Unary.divides]
      split_ifs <;> trivial
  | isEven n =>
      refine .onNatural fun m => ?_
      rw [Unary.isEven, Unary.divides]
      split_ifs <;> trivial
  | isPrime n =>
      refine .onNatural fun m => ?_
      rw [Unary.isPrime]
      split_ifs <;> trivial
  | successor rule row =>
      simp only [derive, Rule.successorDatum, map_bind]
      refine .check_bind fun cells => .check_bind fun _ => ?_
      cases cells with
      | nil => rfl
      | cons first rest => trivial
  | history rule start n =>
      simp only [derive, Query.onNatural, Rule.historyDatum, Rule.history, bind_assoc]
      exact .check_bind fun _ => .check_bind fun _ => .check_bind fun _ => trivial
  | run table tape state =>
      simp only [derive, Table.run, map_bind]
      exact .check_bind fun _ => trivial
  | burn _ => trivial
  | join _ _ => trivial
  | sweep _ _ _ _ => trivial

/-! ### Answers -/

/-- **A query with a tank of its own** is answered by its derivation on it. -/
theorem answer_of_ownTank {query : Query} {settings : Settings} {tank : Tank}
    (h : query.ownTank settings = .ok tank) :
    query.answer settings = (query.derive.runOn tank).1 := by
  have hderive := query.anticipates_derive
  rw [answer]
  cases hopening : query.opening with
  | error fault =>
      rw [hopening] at hderive
      change query.derive = throw fault at hderive
      rw [hderive]
      rfl
  | ok opening =>
      cases opening with
      | none =>
          rw [h]
          rfl
      | some value =>
          rw [hopening] at hderive
          change query.derive = pure value at hderive
          rw [hderive]
          rfl

/-- A query whose answer is not plain from its operands is answered by its derivation on a tank of
its own, if there is one. -/
theorem answer_of_opening {query : Query} (h : query.opening = .ok none) (settings : Settings) :
    query.answer settings = (do
      let tank ← query.ownTank settings
      (query.derive.runOn tank).1) := by
  rw [answer, h]
  rfl

end Metered.Query
