import Metered.Proofs.Cost
import Metered.Proofs.Proper

/-!
# The Cost of a Run

A run makes transitions until the halt, at one unit each. What it ends with is said by the
inductive relation `Ends`, which knows no tank: a run ends at the halt, or with the fault
of a transition, or it goes on for ever. The definition of a run bounds the number of its
transitions by what its tank can pay, but that bound does not show: on a whole tank a run
does what its first transition does and then what the run from there on does
(`runOn_drive_step`).

## Main results

* `Ends.costs`, `costs_run`: a run that ends has the cost and the outcome that `Ends` gives
  it;
* `isEndless_drive`, `isEndless_run`: a run that does not end overdraws every whole tank.
-/

open Metered.Derivation

namespace Metered.Table

/-! ### Ends of runs -/

/-- **The end of a run**: `Ends table tape state n r` if the transitions from a tape and a
state end with `r` once `n` units are drawn, one for each transition and one for a
transition that fails. -/
inductive Ends (table : Datum) : AnyTape → Datum → ℕ → Except Fault AnyTape → Prop
  | halted {tape : AnyTape} {state : Datum} :
      isHalt state = true → Ends table tape state 0 (.ok tape)
  | failed {tape : AnyTape} {state : Datum} {fault : Fault} :
      isHalt state = false → next table tape state = .error fault →
      Ends table tape state 1 (.error fault)
  | moved {tape tape' : AnyTape} {state state' : Datum} {cost : ℕ}
      {outcome : Except Fault AnyTape} :
      isHalt state = false → next table tape state = .ok (tape', state') →
      Ends table tape' state' cost outcome → Ends table tape state (cost + 1) outcome

/-- What a run ends with is proper. -/
theorem Ends.isProper {table : Datum} {tape : AnyTape} {state : Datum} {cost : ℕ}
    {outcome : Except Fault AnyTape} (h : Ends table tape state cost outcome) :
    IsProper outcome := by
  induction h with
  | halted _ => exact isProper_ok _
  | @failed tape state fault _ hfault =>
      exact isProper_error (isProper_next table tape state fault hfault)
  | moved _ _ _ ih => exact ih

/-! ### Runs on whole tanks -/

/-- Transitions until the halt, on a table that is ready for look-ups. -/
def drive (table : Datum) (tape : AnyTape) (state : Datum) : Derivation AnyTape := do
  let tank ← get
  runWithin table tank.capacity tape state

/-- A run makes its table ready for look-ups before anything else. -/
theorem run_eq_drive (raw : Datum) (tape : AnyTape) (state : Datum) :
    run raw tape state = (do
      let table ← ofLiteral raw
      drive table tape state) := rfl

/-- The bound on the transitions is what the tank can pay. -/
theorem runOn_drive (table : Datum) (tape : AnyTape) (state : Datum) (tank : Tank) :
    (drive table tape state).runOn tank = (runWithin table tank.capacity tape state).runOn tank :=
  rfl

/-- At the halt a run leaves every tank as it is. -/
theorem runOn_drive_halt {state : Datum} (h : isHalt state = true) (table : Datum)
    (tape : AnyTape) (tank : Tank) : (drive table tape state).runOn tank = (.ok tape, tank) := by
  rw [runOn_drive]
  cases tank.capacity with
  | zero =>
      simp only [runWithin, h, if_true]
      rfl
  | succ bound =>
      simp only [runWithin, h, if_true]
      rfl

/-- **One transition of a run.** Before the halt a run draws a unit, makes a transition and
runs on from where that leads. -/
theorem runOn_drive_step {state : Datum} (h : isHalt state = false) (table : Datum)
    (tape : AnyTape) (limit : ℤ) (what : String) (spent : ℤ) :
    (drive table tape state).runOn (.whole limit what spent) =
      (do
        burn 1
        let (tape', state') ← next table tape state
        drive table tape' state').runOn (.whole limit what spent) := by
  rw [runOn_drive, Tank.capacity_whole]
  cases hbound : (limit - spent).toNat with
  | zero =>
      have hshort : (burn 1).runOn (.whole limit what spent) = overdraw limit what spent :=
        costs_burn.short limit what spent (by omega)
      rw [runOn_bind_of_error _ hshort, runWithin, h]
      exact runOn_bind_of_error _ hshort
  | succ bound =>
      have hpaid := costs_burn.paid limit what spent (by omega)
      have hcap : (limit - (spent + (1 : ℕ))).toNat = bound := by omega
      rw [runOn_bind_of_ok _ hpaid, runWithin, h]
      simp only [Bool.false_eq_true, if_false]
      rw [runOn_bind_of_ok _ hpaid]
      cases hnext : next table tape state with
      | error fault => rfl
      | ok reached =>
          rw [← hcap]
          rfl

/-- A transition takes a run, for a unit, to where it leads. -/
theorem runOn_drive_moved {table : Datum} {tape tape' : AnyTape} {state state' : Datum}
    (hhalt : isHalt state = false) (hnext : next table tape state = .ok (tape', state'))
    {limit spent : ℤ} (hpaid : spent < limit) (what : String) :
    (drive table tape state).runOn (.whole limit what spent) =
      (drive table tape' state').runOn (.whole limit what (spent + 1)) := by
  have hburn := costs_burn.paid limit what spent (by omega)
  rw [runOn_drive_step hhalt, runOn_bind_of_ok _ hburn, hnext]
  rfl

/-- A transition that fails ends a run, once its unit is spent. -/
theorem runOn_drive_failed {table : Datum} {tape : AnyTape} {state : Datum} {fault : Fault}
    (hhalt : isHalt state = false) (hnext : next table tape state = .error fault)
    {limit spent : ℤ} (hpaid : spent < limit) (what : String) :
    (drive table tape state).runOn (.whole limit what spent) =
      (.error fault, .whole limit what (spent + 1)) := by
  have hburn := costs_burn.paid limit what spent (by omega)
  rw [runOn_drive_step hhalt, runOn_bind_of_ok _ hburn, hnext]
  rfl

/-- Before the halt a tank with nothing left is overdrawn, whatever the transition would do. -/
theorem runOn_drive_short {state : Datum} (hhalt : isHalt state = false) (table : Datum)
    (tape : AnyTape) {limit spent : ℤ} (hshort : limit ≤ spent) (what : String) :
    (drive table tape state).runOn (.whole limit what spent) = overdraw limit what spent := by
  rw [runOn_drive_step hhalt]
  exact runOn_bind_of_error _ (costs_burn.short limit what spent (by omega))

/-- **The cost of a run that ends.** -/
theorem Ends.costs {table : Datum} {tape : AnyTape} {state : Datum} {cost : ℕ}
    {outcome : Except Fault AnyTape} (h : Ends table tape state cost outcome) :
    Costs (drive table tape state) cost outcome := by
  induction h with
  | halted hhalt => exact costs_zero fun tank => runOn_drive_halt hhalt table _ tank
  | @failed tape state fault hhalt hnext =>
      refine Costs.congr (fun limit what spent =>
        runOn_drive_step hhalt table tape limit what spent) ?_
      exact Costs.burn_bind (Costs.check_bind_error hnext _)
  | @moved tape tape' state state' cost outcome hhalt hnext _ ih =>
      refine Costs.congr (fun limit what spent =>
        runOn_drive_step hhalt table tape limit what spent) ?_
      exact Costs.burn_bind (Costs.check_bind hnext ih)

/-- A run that does not end is not at the halt. -/
theorem isHalt_eq_false {table : Datum} {tape : AnyTape} {state : Datum}
    (h : ∀ cost outcome, ¬ Ends table tape state cost outcome) : isHalt state = false := by
  cases hhalt : isHalt state with
  | false => rfl
  | true => exact absurd (.halted hhalt) (h 0 _)

/-- **A run that does not end** overdraws every whole tank: it draws a unit and makes a
transition, and the run from there on does not end either. -/
theorem isEndless_drive {table : Datum} {tape : AnyTape} {state : Datum}
    (h : ∀ cost outcome, ¬ Ends table tape state cost outcome) :
    IsEndless (drive table tape state) := by
  intro limit what spent
  generalize hbound : (limit - spent).toNat = bound
  induction bound generalizing tape state spent with
  | zero => exact runOn_drive_short (isHalt_eq_false h) table tape (by omega) what
  | succ bound ih =>
      have hhalt := isHalt_eq_false h
      cases hnext : next table tape state with
      | error fault => exact absurd (.failed hhalt hnext) (h 1 _)
      | ok reached =>
          obtain ⟨tape', state'⟩ := reached
          have hrest := ih (fun cost outcome hends => h _ _ (.moved hhalt hnext hends))
            (spent + (1 : ℕ)) (by omega)
          rw [overdraw_add (by omega)] at hrest
          rw [runOn_drive_moved hhalt hnext (by omega)]
          exact hrest

/-! ### Runs on tables as they are given -/

/-- A run on a table that can be made ready for look-ups costs what its transitions cost. -/
theorem costs_run {raw table : Datum} {tape : AnyTape} {state : Datum} {cost : ℕ}
    {outcome : Except Fault AnyTape} (htable : ofLiteral raw = .ok table)
    (h : Ends table tape state cost outcome) : Costs (run raw tape state) cost outcome := by
  rw [run_eq_drive]
  exact Costs.check_bind htable h.costs

/-- A run on a table that cannot be made ready for look-ups costs nothing. -/
theorem costs_run_of_error {raw : Datum} {fault : Fault} (htable : ofLiteral raw = .error fault)
    (tape : AnyTape) (state : Datum) : Costs (run raw tape state) 0 (.error fault) := by
  rw [run_eq_drive]
  exact Costs.check_bind_error htable _

/-- A run on a table that can be made ready for look-ups has no end if its transitions come
to none. -/
theorem isEndless_run {raw table : Datum} {tape : AnyTape} {state : Datum}
    (htable : ofLiteral raw = .ok table)
    (h : ∀ cost outcome, ¬ Ends table tape state cost outcome) :
    IsEndless (run raw tape state) := by
  rw [run_eq_drive]
  exact ((costs_check _).cast rfl htable).bind_endless (isEndless_drive h)

end Metered.Table
