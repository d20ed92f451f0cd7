import Mathlib.Data.ENat.Basic
import Metered.Proofs.Primality
import Metered.Proofs.RunCost

/-!
# The Price of a Query

A query is answered from its operands alone: it has a **price**, a cost and an outcome, and
no tank takes part in either. The outcome is a value or a fault of its own, never that of
running short. The cost is a number of units for every call but one: a run of a table that
never halts has an infinite cost.

## Main results

* `IsMetered.bind`: what is composed of derivations with a cost and a proper outcome is one
  of them;
* `isMetered_derive`: every call other than a run has a finite cost and a proper outcome;
* `exists_charges`: every call has a price, which is infinite exactly for a run without end.
-/

open Metered.Derivation

namespace Metered

/-- What a derivation costs and what it ends with; one without end costs more than any
number of units. -/
structure Price (α : Type) where
  cost : ℕ∞
  outcome : Except Fault α

namespace Derivation

variable {α β : Type}

/-! ### Derivations with a cost and a proper outcome -/

/-- A derivation is metered if it has a cost and a proper outcome. -/
def IsMetered (derivation : Derivation α) : Prop :=
  ∃ cost outcome, Costs derivation cost outcome ∧ IsProper outcome

/-- A check with a proper outcome is metered. -/
theorem isMetered_check {check : Except Fault α} (h : IsProper check) :
    IsMetered (liftM check : Derivation α) :=
  ⟨0, check, costs_check check, h⟩

/-- A value is metered. -/
theorem isMetered_pure (a : α) : IsMetered (pure a) :=
  ⟨0, .ok a, costs_pure a, isProper_ok a⟩

/-- Drawing a unit is metered. -/
theorem isMetered_burn : IsMetered (burn 1) :=
  ⟨1, .ok (), costs_burn, isProper_ok ()⟩

/-- A derivation with a cost and a value is metered. -/
theorem Costs.isMetered {derivation : Derivation α} {n : ℕ} {a : α}
    (h : Costs derivation n (.ok a)) : IsMetered derivation :=
  ⟨n, .ok a, h, isProper_ok a⟩

/-- **Composition.** A derivation is metered if its first part is and all that can follow. -/
theorem IsMetered.bind {first : Derivation α} {next : α → Derivation β}
    (hfirst : IsMetered first) (hnext : ∀ a, IsMetered (next a)) : IsMetered (first >>= next) := by
  obtain ⟨m, outcome, hcost, hproper⟩ := hfirst
  cases outcome with
  | error fault =>
      exact ⟨m, .error fault, hcost.bind_error next, isProper_error (hproper fault rfl)⟩
  | ok a =>
      obtain ⟨n, outcome, hcost', hproper'⟩ := hnext a
      exact ⟨m + n, outcome, hcost.bind hcost', hproper'⟩

/-- A function of the value does not change whether a derivation is metered. -/
theorem IsMetered.map {derivation : Derivation α} (f : α → β) (h : IsMetered derivation) :
    IsMetered (f <$> derivation) := by
  rw [← bind_pure_comp]
  exact h.bind fun a => isMetered_pure (f a)

/-! ### Prices -/

/-- **A derivation charges a price** if it has the cost and the outcome of the price, or no
end where the cost is infinite. -/
structure Charges (derivation : Derivation α) (price : Price α) : Prop where
  proper : IsProper price.outcome
  finite : ∀ n : ℕ, price.cost = n → Costs derivation n price.outcome
  infinite : price.cost = ⊤ → IsEndless derivation

/-- A metered derivation charges a finite price. -/
theorem IsMetered.exists_charges {derivation : Derivation α} (h : IsMetered derivation) :
    ∃ price, Charges derivation price ∧ price.cost ≠ ⊤ := by
  obtain ⟨cost, outcome, hcost, hproper⟩ := h
  refine ⟨⟨cost, outcome⟩, ⟨hproper, fun n hn => ?_, fun htop => ?_⟩, ENat.natCast_ne_top cost⟩
  · obtain rfl : cost = n := ENat.natCast_inj.mp hn
    exact hcost
  · exact absurd htop (ENat.natCast_ne_top cost)

/-- A derivation without end charges an infinite price, whatever the outcome is said to
be. -/
theorem IsEndless.charges {derivation : Derivation α} (h : IsEndless derivation)
    {outcome : Except Fault α} (hproper : IsProper outcome) :
    Charges derivation ⟨⊤, outcome⟩ where
  proper := hproper
  finite n hn := absurd hn.symm (ENat.natCast_ne_top n)
  infinite _ := h

end Derivation

/-! ### Rows and histories -/

namespace Rule

/-- The new values of cells are metered, whatever the cells are. -/
theorem isMetered_sweep (rule : Rule) (prev cur : Datum) (rest : List Datum) :
    IsMetered (rule.sweep prev cur rest) := by
  induction rest generalizing prev cur with
  | nil =>
      refine isMetered_burn.bind fun _ => ?_
      refine (isMetered_check (isProper_apply rule prev cur 0)).bind fun cell => ?_
      exact isMetered_pure [cell]
  | cons next rest ih =>
      refine isMetered_burn.bind fun _ => ?_
      refine (isMetered_check (isProper_apply rule prev cur next)).bind fun cell => ?_
      exact (ih cur next).bind fun cells => isMetered_pure (cell :: cells)

/-- The next generation of a row is metered. -/
theorem isMetered_successor (rule : Rule) (row : List Datum) :
    IsMetered (rule.successor row) := by
  refine (isMetered_check (isProper_check "next_row" row)).bind fun _ => ?_
  cases row with
  | nil => exact isMetered_pure []
  | cons first rest =>
      refine (isMetered_sweep rule 0 first rest).bind fun cells => ?_
      refine (isMetered_check (isProper_apply rule 0 0 first)).bind fun left => ?_
      split
      · exact (isMetered_check (isProper_apply rule _ 0 0)).bind fun _ => isMetered_pure _
      · exact isMetered_pure _

/-- Carrying a history on is metered. -/
theorem isMetered_extend (rule : Rule) (past : List (List Datum)) (row : List Datum) (n : ℕ) :
    IsMetered (rule.extend past row n) := by
  induction n generalizing past row with
  | zero => exact isMetered_pure past.reverse
  | succ n ih =>
      refine isMetered_burn.bind fun _ => ?_
      exact (isMetered_successor rule row).bind fun next => ih (row :: past) next

/-- New values of cells that are given as any datum are metered. -/
theorem isMetered_sweepDatum (rule : Rule) (prev cur rest : Datum) :
    IsMetered (rule.sweepDatum prev cur rest) := by
  rw [sweepDatum]
  split
  · exact isMetered_sweep rule prev cur _
  · split
    · refine isMetered_burn.bind fun _ => ?_
      exact isMetered_check (isProper_error (not_isBudgetFault_noFirst rest))
    · exact isMetered_sweep rule prev cur []

/-- The next generation of a row that is given as any datum is metered. -/
theorem isMetered_successorDatum (rule : Rule) (row : Datum) :
    IsMetered (rule.successorDatum row) := by
  refine (isMetered_check (isProper_items row)).bind fun cells => ?_
  refine (isMetered_check (isProper_check "next_row" cells)).bind fun _ => ?_
  have hsuccessor := isMetered_successor rule cells
  dsimp only
  split
  · exact hsuccessor
  · exact (isMetered_check (isProper_uncons row)).bind fun _ => hsuccessor

/-- A history of a row that is given as any datum is metered. -/
theorem isMetered_historyDatum (rule : Rule) (start : Datum) (n : ℕ) :
    IsMetered (rule.historyDatum start n) := by
  refine (isMetered_check (isProper_items start)).bind fun cells => ?_
  refine (isMetered_check (isProper_check "iterate" cells)).bind fun _ => ?_
  exact isMetered_extend rule [] cells n

end Rule

/-! ### Calls -/

namespace Query

variable {α : Type}

/-- A derivation on a checked operand is metered if it is on every natural number. -/
theorem isMetered_onNatural (op : String) (n : Datum) {derivation : ℕ → Derivation α}
    (h : ∀ m, IsMetered (derivation m)) : IsMetered (onNatural op n derivation) :=
  (isMetered_check (isProper_natural op n)).bind h

/-- A derivation on two checked operands is metered if it is on all natural numbers. -/
theorem isMetered_onNaturals (op : String) (a b : Datum) {derivation : ℕ → ℕ → Derivation α}
    (h : ∀ m n, IsMetered (derivation m n)) : IsMetered (onNaturals op a b derivation) :=
  (isMetered_check (isProper_natural op a)).bind fun m =>
    (isMetered_check (isProper_natural op b)).bind fun n => h m n

/-- A division is metered, also by zero. -/
theorem isMetered_divide (a b : ℕ) : IsMetered (Unary.divide a b) := by
  obtain rfl | hb := Nat.eq_zero_or_pos b
  · exact isMetered_check (isProper_error id)
  · exact (Unary.draws_divide a hb).costs.isMetered

/-- A test of divisibility is metered, also by zero. -/
theorem isMetered_divides (a b : ℕ) : IsMetered (Unary.divides a b) := by
  obtain rfl | ha := Nat.eq_zero_or_pos a
  · exact isMetered_check (isProper_error id)
  · exact (Unary.draws_divides ha b).costs.isMetered

/-- Joining two sequences that are given as any data is metered. -/
theorem isMetered_joinData (first second : Datum) : IsMetered (joinData first second) := by
  refine (isMetered_check (isProper_items first)).bind fun xs => ?_
  refine (isMetered_check (isProper_items second)).bind fun ys => ?_
  exact (Unary.draws_join xs ys).costs.isMetered

/-- A run of a table, which alone can go on for ever. -/
def IsRun : Query → Prop
  | run .. => True
  | _ => False

/-- An explicit draw from the tank. -/
def IsDraw : Query → Prop
  | burn _ => True
  | _ => False

/-- **Finite calls.** Every call other than a run has a cost and a proper outcome, whatever
its operands are. -/
theorem isMetered_derive (query : Query) (hrun : ¬ query.IsRun) (hdraw : ¬ query.IsDraw) :
    IsMetered query.derive := by
  cases query with
  | burn amount => exact absurd trivial hdraw
  | tally n =>
      refine IsMetered.bind ?_ fun cells => isMetered_pure _
      exact isMetered_onNatural _ n fun m => (Unary.draws_tally m).costs.isMetered
  | add a b =>
      exact (isMetered_onNaturals _ a b fun m n => (Unary.draws_add m n).costs.isMetered).map _
  | subtract a b =>
      exact (isMetered_onNaturals _ a b fun m n => (Unary.draws_subtract m n).costs.isMetered).map _
  | isLess a b =>
      exact (isMetered_onNaturals _ b a fun n m => (Unary.draws_isLess m n).costs.isMetered).map _
  | multiply a b =>
      exact (isMetered_onNaturals _ a b fun m n => (Unary.draws_multiply m n).costs.isMetered).map _
  | divide a b => exact (isMetered_onNaturals _ a b isMetered_divide).map _
  | divides a b => exact (isMetered_onNaturals _ a b isMetered_divides).map _
  | isEven n => exact (isMetered_onNatural _ n fun m => isMetered_divides 2 m).map _
  | isPrime n =>
      exact (isMetered_onNatural _ n fun m => (Unary.costs_isPrime m).isMetered).map _
  | join first second => exact (isMetered_joinData first second).map _
  | sweep rule prev cur rest => exact (rule.isMetered_sweepDatum prev cur rest).map _
  | successor rule row => exact (rule.isMetered_successorDatum row).map _
  | history rule start n =>
      refine IsMetered.bind ?_ fun rows => isMetered_pure _
      exact isMetered_onNatural _ n fun m => rule.isMetered_historyDatum start m
  | run table tape state => exact absurd trivial hrun

/-- A run without end: its table can be made ready for look-ups, and its transitions come
neither to the halt nor to a fault. -/
def NeverHalts : Query → Prop
  | run raw tape state => ∃ table, Table.ofLiteral raw = .ok table ∧
      ∀ cost outcome, ¬ Table.Ends table (AnyTape.ofDatum tape) state cost outcome
  | _ => False

/-- A run has a price, which is infinite exactly if the run has no end. -/
theorem exists_charges_run (raw tape state : Datum) :
    ∃ price, Charges (derive (.run raw tape state)) price ∧
      (price.cost = ⊤ ↔ NeverHalts (.run raw tape state)) := by
  have hfinite (h : IsMetered (Table.run raw (AnyTape.ofDatum tape) state))
      (hnot : ¬ NeverHalts (.run raw tape state)) :
      ∃ price, Charges (derive (.run raw tape state)) price ∧
        (price.cost = ⊤ ↔ NeverHalts (.run raw tape state)) := by
    obtain ⟨price, hprice, hcost⟩ := (h.map AnyTape.toDatum).exists_charges
    exact ⟨price, hprice, iff_of_false hcost hnot⟩
  cases htable : Table.ofLiteral raw with
  | error fault =>
      have hcosts := Table.costs_run_of_error htable (AnyTape.ofDatum tape) state
      have hproper : IsProper (.error fault : Except Fault AnyTape) :=
        isProper_error (isProper_ofLiteral raw fault htable)
      refine hfinite ⟨0, _, hcosts, hproper⟩ ?_
      rintro ⟨table, htable', -⟩
      rw [htable] at htable'
      cases htable'
  | ok table =>
      by_cases hends : ∃ cost outcome, Table.Ends table (AnyTape.ofDatum tape) state cost outcome
      · obtain ⟨cost, outcome, hends⟩ := hends
        refine hfinite ⟨cost, outcome, Table.costs_run htable hends, hends.isProper⟩ ?_
        rintro ⟨table', htable', hnot⟩
        rw [htable] at htable'
        cases htable'
        exact hnot cost outcome hends
      · have hnot : ∀ cost outcome,
            ¬ Table.Ends table (AnyTape.ofDatum tape) state cost outcome :=
          fun cost outcome h => hends ⟨cost, outcome, h⟩
        have hendless : IsEndless (Table.run raw (AnyTape.ofDatum tape) state) :=
          Table.isEndless_run htable hnot
        refine ⟨⟨⊤, .ok .null⟩, (hendless.map AnyTape.toDatum).charges (isProper_ok _), ?_⟩
        exact iff_of_true rfl ⟨table, htable, hnot⟩

/-- **Prices.** Every call has a price, which is infinite exactly for a run without end. -/
theorem exists_charges (query : Query) (hdraw : ¬ query.IsDraw) :
    ∃ price, Charges query.derive price ∧ (price.cost = ⊤ ↔ query.NeverHalts) := by
  by_cases hrun : query.IsRun
  · cases query with
    | run raw tape state => exact exists_charges_run raw tape state
    | _ => exact absurd hrun id
  · obtain ⟨price, hprice, hcost⟩ := (isMetered_derive query hrun hdraw).exists_charges
    have hnot : ¬ query.NeverHalts := by
      cases query with
      | run raw tape state => exact absurd trivial hrun
      | _ => exact id
    exact ⟨price, hprice, iff_of_false hcost hnot⟩

end Query

end Metered
