import Metered.Proofs.Allowance
import Metered.Proofs.Alone
import Metered.Proofs.RunCost

/-!
# Runs on a Tank and Runs of a Machine

There are two ways to run a table to the halt: a run that draws a unit from a tank before
each look-up, and a machine that compares the number of its transitions with a total fixed
beforehand. Both follow the same path of transitions, and where that path does not end
within the budget both say so. The two counts differ only where a transition fails: the unit
for it is spent, but the machine has not made it.

A machine counts its transitions over all of its runs, although each of them has an allowance
of its own. The fault of a budget names the limit of the run that has failed beside that total,
and the fault of a tank names its limit beside what was drawn from it. So the two are the same
for a machine that has not made a transition before; for any other the machine counts too many.

## Main results

* `IsPrepared.runOn_drive_add`: a run on a tank goes on from where a machine has come to;
* `IsPrepared.path_eq`: a machine follows the path of transitions;
* `IsPrepared.run_cases`: both end in the same way, or both with the fault of the budget;
* `IsPrepared.runOn_derive_eq_run`: a run on a tank has the outcome of a run of a fresh machine;
* `IsPrepared.answer_run`: the same where no budget is named;
* `Machine.run_agrees`: a run on a tank and a run of a machine have the same outcome, and what
  they have counted then;
* `Machine.fault_counts_all_runs`: what the faults of the budget count where both end with them.
-/

open Metered.Derivation

namespace Metered.Table

/-! ### Paths -/

/-- **The path of transitions**: the tape and the state after a number of them, as long as the
halt has not been reached before and none has failed. -/
def path (raw : Datum) (tape : AnyTape) (state : Datum) : ℕ → Option (AnyTape × Datum)
  | 0 => some (tape, state)
  | count + 1 => (path raw tape state count).bind fun (tape, state) =>
      if isHalt state then none else (transition raw tape state).toOption

/-- A transition on a tape with two tuples for its sides can only fail in the look-up. -/
theorem next_recorded (table : Datum) (tape : Tape Datum) (state : Datum) :
    next table (.recorded tape) state =
      (lookup table state tape.head).map fun entry =>
        (.recorded (entry.apply tape), entry.next) := by
  have hhead : AnyTape.head (.recorded tape) = .ok tape.head := rfl
  rw [next, hhead]
  change (lookup table state tape.head >>= fun entry => _) = _
  cases lookup table state tape.head with
  | error fault => rfl
  | ok entry =>
      have hmove : AnyTape.move (.recorded tape) entry.heading entry.write =
          .ok (.recorded (entry.apply tape)) := by
        rw [Transition.apply]
        cases entry.heading <;> rfl
      change (AnyTape.move (.recorded tape) entry.heading entry.write >>= fun moved => _) = _
      rw [hmove]
      rfl

end Metered.Table

namespace Metered.Machine

variable {machine : Machine} {table : Table}

/-! ### Transitions of machines and of tables -/

/-- A transition takes a machine to where it takes its tape and its state. -/
theorem IsPrepared.next_eq (h : machine.IsPrepared table) :
    Table.next table.toDatum (.recorded machine.tape) machine.state =
      machine.advance.map fun next => (.recorded next.tape, next.state) := by
  rw [Table.next_recorded, advance, h.table_eq]
  cases Table.lookup table.toDatum machine.state machine.tape.head <;> rfl

/-- The same for a transition on the table as it is given. -/
theorem IsPrepared.transition_eq (h : machine.IsPrepared table) :
    Table.transition table.toDatum (.recorded machine.tape) machine.state =
      machine.advance.map fun next => (.recorded next.tape, next.state) := by
  rw [Table.transition, table.ofLiteral_toDatum]
  exact h.next_eq

/-- If each of several ticks makes a transition, so does the last of them. -/
theorem advance_afterTicks {count : ℕ}
    (hsteps : (machine.afterTicks (count + 1)).steps = machine.steps + (count + 1)) :
    (machine.afterTicks count).steps = machine.steps + count ∧
      (machine.afterTicks count).halted = false ∧
      (machine.afterTicks count).advance = .ok (machine.afterTicks (count + 1)) := by
  have hmoves : ¬ (machine.afterTicks count).IsAtRest ∧
      (machine.afterTicks count).steps ≤ machine.steps + count := by
    obtain ⟨made, heq, hmade, hend⟩ := afterTicks_cases machine count
    have hle : made ≤ count := by omega
    refine ⟨fun hrest => ?_, by rw [heq, hmade]; omega⟩
    rw [afterTicks_succ', hrest.tick_eq, heq, hmade] at hsteps
    omega
  obtain ⟨hrest, hle⟩ := hmoves
  have hrunning : (machine.afterTicks count).halted = false :=
    Bool.eq_false_iff.mpr fun hhalted => hrest (.inl hhalted)
  cases hadvance : (machine.afterTicks count).advance with
  | error fault => exact absurd (.inr ⟨fault, hadvance⟩) hrest
  | ok next =>
      have hnext : machine.afterTicks (count + 1) = next := by
        rw [afterTicks_succ', tick_of_advance hrunning hadvance]
      have hcount := steps_of_advance hadvance
      rw [hnext] at hsteps ⊢
      exact ⟨by omega, hrunning, rfl⟩

/-- **A machine follows the path** of transitions as long as each tick makes one. -/
theorem IsPrepared.path_eq (h : machine.IsPrepared table) {count : ℕ}
    (hsteps : (machine.afterTicks count).steps = machine.steps + count) :
    Table.path table.toDatum (.recorded machine.tape) machine.state count =
      some (.recorded (machine.afterTicks count).tape, (machine.afterTicks count).state) := by
  induction count with
  | zero => rfl
  | succ count ih =>
      obtain ⟨hbefore, hrunning, hadvance⟩ := advance_afterTicks hsteps
      have hnot : isHalt (machine.afterTicks count).state = false := hrunning
      rw [Table.path, ih hbefore, Option.bind_some]
      dsimp only
      rw [hnot, (h.afterTicks count).transition_eq, hadvance]
      rfl

/-! ### Runs on tanks -/

/-- **A run on a tank goes on from where a machine has come to**, with as many units less as
the machine has made transitions. -/
theorem IsPrepared.runOn_drive_add (h : machine.IsPrepared table) {count : ℕ}
    (hsteps : (machine.afterTicks count).steps = machine.steps + count) (what : String)
    {limit spent : ℤ} (hlimit : count ≤ (limit - spent).toNat) :
    (Table.drive table.toDatum (.recorded machine.tape) machine.state).runOn
        (.whole limit what spent) =
      (Table.drive table.toDatum (.recorded (machine.afterTicks count).tape)
        (machine.afterTicks count).state).runOn (.whole limit what (spent + count)) := by
  induction count with
  | zero =>
      rw [Int.natCast_zero, Int.add_zero]
      rfl
  | succ count ih =>
      obtain ⟨hbefore, hrunning, hadvance⟩ := advance_afterTicks hsteps
      have hnot : isHalt (machine.afterTicks count).state = false := hrunning
      have hnext := (h.afterTicks count).next_eq
      rw [hadvance] at hnext
      rw [ih hbefore (by omega), Table.runOn_drive_moved hnot hnext (by omega)]
      push_cast
      rw [Int.add_assoc]

/-- A run on a tank that the machine takes to the halt spends a unit for each transition. -/
theorem IsPrepared.runOn_drive_halted (h : machine.IsPrepared table) {made limit : ℕ}
    (hsteps : (machine.afterTicks made).steps = machine.steps + made)
    (hhalted : (machine.afterTicks made).halted = true) (hle : made ≤ limit) (what : String) :
    (Table.drive table.toDatum (.recorded machine.tape) machine.state).runOn
        (.whole limit what 0) =
      (.ok (.recorded (machine.afterTicks made).tape), .whole limit what made) := by
  rw [h.runOn_drive_add hsteps what (by omega), Table.runOn_drive_halt hhalted, Int.zero_add]

/-- A run on a tank that the machine takes to a transition that fails spends a unit for that
one as well. -/
theorem IsPrepared.runOn_drive_stuck (h : machine.IsPrepared table) {made limit : ℕ}
    {fault : Fault} (hsteps : (machine.afterTicks made).steps = machine.steps + made)
    (hrunning : (machine.afterTicks made).halted = false)
    (hfault : (machine.afterTicks made).advance = .error fault) (hlt : made < limit)
    (what : String) :
    (Table.drive table.toDatum (.recorded machine.tape) machine.state).runOn
        (.whole limit what 0) =
      (.error fault, .whole limit what (made + 1)) := by
  have hnext := (h.afterTicks made).next_eq
  rw [hfault] at hnext
  rw [h.runOn_drive_add hsteps what (by omega), Int.zero_add,
    Table.runOn_drive_failed hrunning hnext (by omega)]

/-- A run on a tank that the machine takes nowhere within the limit overdraws the tank by a
unit. -/
theorem IsPrepared.runOn_drive_running (h : machine.IsPrepared table) {limit : ℕ}
    (hsteps : (machine.afterTicks limit).steps = machine.steps + limit)
    (hrunning : (machine.afterTicks limit).halted = false) (what : String) :
    (Table.drive table.toDatum (.recorded machine.tape) machine.state).runOn
        (.whole limit what 0) =
      (.error (.budgetExceeded (.int limit) (.int (limit + 1)) what),
        .whole limit what (limit + 1)) := by
  rw [h.runOn_drive_add hsteps what (by omega), Int.zero_add,
    Table.runOn_drive_short hrunning _ _ (Int.le_refl _), overdraw_of_le (Int.le_refl _)]

/-! ### Both runs -/

/-- Of all integers for a state only one is the halt. -/
theorem halted_iff {n : ℤ} (h : machine.state = .int n) :
    machine.halted = true ↔ n = haltState := by
  rw [halted, h, isHalt_int, decide_eq_true_iff]

/-- The query for a run draws what the run draws, once its table is ready for look-ups. -/
theorem runOn_derive_run {raw literal : Datum} (h : Table.ofLiteral raw = .ok literal)
    (tape : Tape Datum) (state : Datum) (tank : Tank) :
    (Query.run raw tape.toDatum state).derive.runOn tank =
      (((Table.drive literal (.recorded tape) state).runOn tank).1.map AnyTape.toDatum,
        ((Table.drive literal (.recorded tape) state).runOn tank).2) := by
  have htape : AnyTape.ofDatum tape.toDatum = .recorded tape := by
    rw [AnyTape.ofDatum, Tape.ofDatum?_toDatum]
  have hready : (liftM (Table.ofLiteral raw) : Derivation Datum).runOn tank =
      (.ok literal, tank) := by
    rw [runOn_check, h]
  rw [Query.derive, htape, runOn_map, Table.run_eq_drive, runOn_bind_of_ok _ hready]

/-- A transition does not run short of a budget. -/
theorem isProper_advance (machine : Machine) : IsProper machine.advance :=
  (isProper_lookup _ _ _).map _

/-- **How a run and a run on a tank end.** Either both end in the same way, but not with the fault
of a budget, or both end with that one. The tank has drawn a unit for each transition that the
machine has made in its run, and one more unless the machine has come to the halt. -/
theorem IsPrepared.run_cases (h : machine.IsPrepared table) (limit : ℕ) (verbose : Bool) :
    let outcome := machine.run (.int limit) verbose
    let tank := Tank.whole limit Table.runPurpose
    let drawn := (Query.run machine.table machine.tape.toDatum machine.state).derive.runOn (tank 0)
    let fault (spent : ℤ) := Fault.budgetExceeded (.int limit) (.int spent) Table.runPurpose
    IsProper outcome.result ∧
        drawn = (outcome.result.map Tape.toDatum,
          tank (outcome.machine.steps - machine.steps + if outcome.machine.halted then 0 else 1)) ∨
      outcome.result = .error (fault (machine.steps + limit + 1)) ∧
        outcome.machine.steps = machine.steps + limit ∧ outcome.machine.halted = false ∧
        drawn = (.error (fault (limit + 1)), tank (limit + 1)) := by
  intro outcome tank drawn fault
  obtain ⟨hmachine, hresult⟩ : outcome.machine = machine.afterTicks limit ∧
      outcome.result = (machine.afterTicks limit).verdict (.int limit) (machine.steps + limit) :=
    run_int machine limit verbose
  have hready : Table.ofLiteral machine.table = .ok table.toDatum := by
    rw [h.table_eq, table.ofLiteral_toDatum]
  have hdrawn := runOn_derive_run hready machine.tape machine.state (tank 0)
  -- both runs end where the ticks come to: at the halt, at a transition that fails or at the limit
  obtain ⟨made, heq, hsteps, hend⟩ := afterTicks_cases machine limit
  have hcount : ((machine.afterTicks made).steps - machine.steps : ℤ) = made := by omega
  rw [heq] at hmachine
  rw [heq, verdict, hsteps] at hresult
  rw [hmachine, hcount]
  rcases hend with ⟨hle, hhalted⟩ | ⟨hlt, hrunning, cause, hfault⟩ | ⟨rfl, hrunning⟩
  · rw [h.runOn_drive_halted hsteps hhalted hle] at hdrawn
    rw [if_pos hhalted] at hresult
    refine .inl ⟨hresult ▸ isProper_ok _, ?_⟩
    rw [hresult, if_pos hhalted, Int.add_zero]
    exact hdrawn
  · rw [h.runOn_drive_stuck hsteps hrunning hfault hlt] at hdrawn
    rw [hrunning, if_neg Bool.false_ne_true, if_neg (by omega)] at hresult
    refine .inl ⟨hresult ▸ (machine.afterTicks made).isProper_advance.map _, ?_⟩
    rw [hresult, hfault, hrunning, if_neg Bool.false_ne_true]
    exact hdrawn
  · rw [h.runOn_drive_running hsteps hrunning] at hdrawn
    rw [hrunning, if_neg Bool.false_ne_true, if_pos (Nat.le_refl _)] at hresult
    refine .inr ⟨?_, hsteps, hrunning, hdrawn⟩
    rw [hresult]
    push_cast
    rfl

/-- **A run on a tank has the outcome of a run of the machine** that has not made a transition
before. -/
theorem IsPrepared.runOn_derive_eq_run (h : machine.IsPrepared table) (hfresh : machine.steps = 0)
    (limit : ℕ) (verbose : Bool) :
    let outcome := machine.run (.int limit) verbose
    (Query.run table.toDatum machine.tape.toDatum machine.state).derive.runOn
        (.whole limit Table.runPurpose 0) =
      (outcome.result.map Tape.toDatum, .whole limit Table.runPurpose
        (outcome.machine.steps + if outcome.machine.halted then 0 else 1)) := by
  intro outcome
  rw [← h.table_eq]
  rcases h.run_cases limit verbose with ⟨-, hdrawn⟩ | ⟨hspent, hsteps, hrunning, hdrawn⟩
  · rw [hdrawn, hfresh, Int.natCast_zero, Int.sub_zero]
  · rw [hdrawn, hspent, hsteps, hrunning, hfresh]
    simp [Except.map]

/-- **A run that is asked alone** has the outcome of a run of the machine for which no limit is
named, unless the budget is below zero, of which there is no tank. -/
theorem IsPrepared.answer_run (h : machine.IsPrepared table) (hfresh : machine.steps = 0)
    (verbose : Bool) (settings : Settings) :
    (Query.run table.toDatum machine.tape.toDatum machine.state).answer settings =
      if settings.transitions < 0 then .error (.negativeLimit (.int settings.transitions))
      else (machine.run .null verbose settings).result.map Tape.toDatum := by
  obtain ⟨spending, transitions⟩ := settings
  by_cases hneg : transitions < 0
  · have hopening : (Query.run table.toDatum machine.tape.toDatum machine.state).opening =
        .ok none := by
      rw [Query.opening, table.ofLiteral_toDatum]
      rfl
    rw [if_pos hneg, Query.answer_of_opening hopening, Query.ownTank, Tank.ofLimit_of_neg hneg]
    rfl
  · obtain ⟨limit, rfl⟩ := Int.eq_ofNat_of_zero_le (Int.not_lt.mp hneg)
    have htank : (Query.run table.toDatum machine.tape.toDatum machine.state).ownTank
        ⟨spending, limit⟩ = .ok (.whole limit Table.runPurpose 0) := Tank.ofLimit_natCast limit _
    rw [if_neg hneg, Query.answer_of_ownTank htank,
      h.runOn_derive_eq_run hfresh limit verbose]
    rfl

/-- **Runs on a tank and runs of a machine agree.** Let a table pass its check, and let the
path of transitions in its normal form begin with a tape and an integer for a state. For each
budget one of three things is the case. The path reaches the halt within the budget: both runs
yield its tape. A transition fails within the budget: both end with its fault, which names the
state and the cell. Or neither happens, and both end with the fault of the budget. The tank and
the machine have then counted the same, but for the unit that goes on what failed. Where none is
named, both take the budget of the settings, whatever it is, and agree: only below zero there is no
tank with it. The run of a table alone begins with the blank tape. -/
theorem run_agrees {raw : Datum} (h : Table.ofDatum raw = .ok table) (tape : Tape Datum)
    (state : ℤ) (verbose : Bool) :
    ∃ machine, ofData raw tape.toDatum (.int state) = .ok machine ∧
      let query := Query.run table.toDatum tape.toDatum (.int state)
      let path := Table.path table.toDatum (.recorded tape) (.int state)
      (∀ limit : ℕ,
        let tank := Tank.whole limit Table.runPurpose
        let drawn := query.derive.runOn (tank 0)
        let driven := machine.run (.int limit) verbose
        Tank.ofLimit (.int limit) Table.runPurpose = .ok (tank 0) ∧
        ((∃ made ≤ limit, ∃ last,
            path made = some (.recorded last, .int haltState) ∧
            drawn = (.ok last.toDatum, tank made) ∧
            driven.result = .ok last ∧ driven.machine.steps = made) ∨
          (∃ made < limit, ∃ last now cause,
            let fault := .undefinedTransition cause (.int now) last.head
            path made = some (.recorded last, .int now) ∧ now ≠ haltState ∧
            Table.transition table.toDatum (.recorded last) (.int now) = .error fault ∧
            drawn = (.error fault, tank (made + 1)) ∧
            driven.result = .error fault ∧ driven.machine.steps = made) ∨
          (∃ last now,
            let fault := .budgetExceeded (.int limit) (.int (limit + 1)) Table.runPurpose
            path limit = some (.recorded last, .int now) ∧ now ≠ haltState ∧
            drawn = (.error fault, tank (limit + 1)) ∧
            driven.result = .error fault ∧ driven.machine.steps = limit))) ∧
      (∀ settings : Settings,
        let budget := settings.transitions
        let driven := machine.run .null verbose settings
        query.ownTank settings = Tank.ofLimit (.int budget) Table.runPurpose ∧
        driven = machine.run (.int budget) verbose ∧
        query.answer settings =
          if budget < 0 then .error (.negativeLimit (.int budget))
          else driven.result.map Tape.toDatum) ∧
      ∀ (limit : Datum) (settings : Settings), runBlank raw limit settings = (do
        let machine ← ofData raw Tape.blank.toDatum (.int 0)
        (machine.run limit false settings).result) := by
  obtain ⟨machine, hmachine⟩ : ∃ machine, machine = start table tape (.int state) := ⟨_, rfl⟩
  have hprepared : machine.IsPrepared table := hmachine ▸ isPrepared_start table tape state
  have htape : machine.tape = tape := by rw [hmachine]; rfl
  have hstate : machine.state = .int state := by rw [hmachine]; rfl
  have hfresh : machine.steps = 0 := by rw [hmachine]; rfl
  refine ⟨machine, hmachine ▸ ofData_eq_start h tape (.int state),
    fun limit => ⟨Tank.ofLimit_natCast limit _, ?_⟩,
    fun settings => ⟨rfl, rfl, ?_⟩, fun limit settings => ?_⟩
  · obtain ⟨hleft, hresult⟩ := run_int machine limit verbose
    obtain ⟨made, heq, hsteps, hend⟩ := afterTicks_cases machine limit
    obtain ⟨now, hnow⟩ := (hprepared.afterTicks made).state_eq
    have hpath := hprepared.path_eq hsteps
    have hcount : (machine.afterTicks made).steps = made := by omega
    rw [Int.toNat_natCast, heq] at hleft hresult
    rw [← htape, ← hstate, hprepared.runOn_derive_eq_run hfresh limit verbose, hleft, hresult,
      verdict, hcount]
    rw [hnow] at hpath
    rcases hend with ⟨hle, hhalted⟩ | ⟨hlt, hrunning, fault, hfault⟩ | ⟨rfl, hrunning⟩
    · rw [(halted_iff hnow).mp hhalted] at hpath
      rw [if_pos hhalted, if_pos hhalted]
      exact .inl ⟨made, hle, _, hpath, rfl, rfl, rfl⟩
    · have hnot : ¬ (machine.afterTicks made).halted = true := by simp [hrunning]
      have hbudget : ¬ machine.steps + limit ≤ made := by omega
      have htransition := (hprepared.afterTicks made).transition_eq
      obtain ⟨cause, rfl⟩ := (hprepared.afterTicks made).exists_cause hfault
      rw [hfault, hnow] at htransition
      rw [if_neg hnot, if_neg hnot, if_neg hbudget, hfault, hnow]
      exact .inr (.inl ⟨made, hlt, _, now, cause, hpath, mt (halted_iff hnow).mpr hnot,
        htransition, rfl, rfl, rfl⟩)
    · have hnot : ¬ (machine.afterTicks made).halted = true := by simp [hrunning]
      have hbudget : machine.steps + made ≤ made := by omega
      rw [if_neg hnot, if_neg hnot, if_pos hbudget]
      exact .inr (.inr ⟨_, now, hpath, mt (halted_iff hnow).mpr hnot, rfl, rfl, rfl⟩)
  · rw [← htape, ← hstate]
    exact hprepared.answer_run hfresh verbose settings
  · rw [ofData_eq_start h, runBlank, ofTable, h]
    rfl

/-- The walker comes to a cell that is no bit with its last unit but one: the last unit goes on
the look-up that fails. -/
theorem walker_agrees :
    Table.ofDatum walker = .ok walkerTable ∧
    ∃ machine, ofData walker (Tape.mk [] 0 [0, .int 2]).toDatum (.int 0) = .ok machine ∧
      ∃ made < (3 : ℕ), ∃ last now cause,
        let fault := .undefinedTransition cause (.int now) last.head
        let drawn := (Query.run walkerTable.toDatum (Tape.mk [] 0 [0, .int 2]).toDatum
          (.int 0)).derive.runOn (.whole 3 Table.runPurpose 0)
        let driven := machine.run (.int 3) false
        Table.transition walkerTable.toDatum (.recorded last) (.int now) = .error fault ∧
        drawn = (.error fault, .whole 3 Table.runPurpose (made + 1)) ∧
        driven.result = .error fault ∧ driven.machine.steps = made := by
  obtain ⟨machine, hmachine, hruns, -⟩ :=
    run_agrees ofDatum_walker ⟨[], 0, [0, .int 2]⟩ 0 false
  refine ⟨ofDatum_walker, machine, hmachine, ?_⟩
  obtain ⟨-, ⟨made, hle, last, hpath, -⟩ | ⟨made, hlt, last, now, cause, -, -, hfails⟩ |
    ⟨last, now, hpath, -⟩⟩ := hruns 3
  · have hrunning : ∀ made ≤ 3, ((Table.path walkerTable.toDatum
        (.recorded ⟨[], 0, [0, .int 2]⟩) (.int 0) made).map fun c => isHalt c.2) ≠ some true := by
      decide
    exact absurd (congrArg (Option.map fun c => isHalt c.2) hpath) (hrunning made hle)
  · exact ⟨made, hlt, last, now, cause, hfails⟩
  · have hend : Table.path walkerTable.toDatum (.recorded ⟨[], 0, [0, .int 2]⟩) (.int 0) 3 =
        none := rfl
    cases hend.symm.trans hpath

/-! ### What the fault of a budget counts -/

/-- **What the fault of a budget counts.** Let a table pass its check, and let a machine of it be
told whatever commands under whatever settings. Then let it run with a limit, and let a tank with
that limit be there for a run of its table from its tape and state. Either both runs end in the same
way, or both with the fault of the budget. This names the limit both times, but what it says is
spent differs: on the tank it is one more than the limit, and at the machine it is one more than its
transitions in all of its runs. These are the same for a machine that has not made a transition
before, and for no other. -/
theorem fault_counts_all_runs {raw : Datum} (h : Table.ofDatum raw = .ok table) (tape : Tape Datum)
    (state : ℤ) :
    ∃ machine, ofData raw tape.toDatum (.int state) = .ok machine ∧
      ∀ (settings : Settings) (commands : List Command) (limit : ℕ) (verbose : Bool),
        let now := machine.after commands settings
        let outcome := now.run (.int limit) verbose
        let tank := Tank.whole limit Table.runPurpose
        let drawn := (Query.run now.table now.tape.toDatum now.state).derive.runOn (tank 0)
        let fault (spent : ℤ) := Fault.budgetExceeded (.int limit) (.int spent) Table.runPurpose
        Tank.ofLimit (.int limit) Table.runPurpose = .ok (tank 0) ∧
        (IsProper outcome.result ∧ drawn.1 = outcome.result.map Tape.toDatum ∨
          outcome.result = .error (fault (now.steps + limit + 1)) ∧
            outcome.machine.steps = now.steps + limit ∧
            drawn = (.error (fault (limit + 1)), tank (limit + 1))) ∧
        (drawn.1 = outcome.result.map Tape.toDatum ↔ IsProper outcome.result ∨ now.steps = 0) := by
  refine ⟨_, ofData_eq_start h tape (.int state), fun settings commands limit verbose => ?_⟩
  intro now outcome tank drawn fault
  obtain ⟨count, hcount⟩ : ∃ count, now = (start table tape (.int state)).afterTicks count :=
    exists_after_eq _ commands settings
  have hprepared : now.IsPrepared table :=
    hcount ▸ (isPrepared_start table tape state).afterTicks count
  have hcases : IsProper outcome.result ∧ drawn.1 = outcome.result.map Tape.toDatum ∨
      outcome.result = .error (fault (now.steps + limit + 1)) ∧
        outcome.machine.steps = now.steps + limit ∧
        drawn = (.error (fault (limit + 1)), tank (limit + 1)) := by
    rcases hprepared.run_cases limit verbose with ⟨hproper, hdrawn⟩ | ⟨hspent, hsteps, -, hdrawn⟩
    · exact .inl ⟨hproper, congrArg Prod.fst hdrawn⟩
    · exact .inr ⟨hspent, hsteps, hdrawn⟩
  refine ⟨Tank.ofLimit_natCast limit _, hcases, ?_⟩
  rcases hcases with ⟨hproper, hequal⟩ | ⟨hspent, -, hdrawn⟩
  · simp [hproper, hequal]
  · have hshort : ¬ IsProper outcome.result := fun hproper => hproper _ hspent trivial
    constructor
    · intro hequal
      rw [hdrawn, hspent] at hequal
      have hsame : (limit + 1 : ℤ) = now.steps + limit + 1 := by
        injection hequal with hfaults
        injection hfaults with _ hspents _
        injection hspents
      exact .inr (by omega)
    · rintro (hproper | hfresh)
      · exact absurd hproper hshort
      · simp [hdrawn, hspent, hfresh, Except.map]

/-- The walker has made three transitions when it is told to run for three more. The fault of that
run counts seven, and on the tank four. -/
theorem walker_counts_all_runs :
    Table.ofDatum walker = .ok walkerTable ∧
    ∃ machine, ofData walker Tape.blank.toDatum (.int 0) = .ok machine ∧
      let now := machine.after [.tick, .run (.int 2) true]
      let outcome := now.run (.int 3) false
      let fault (spent : ℤ) := Fault.budgetExceeded (.int 3) (.int spent) Table.runPurpose
      now.steps = 3 ∧ outcome.result = .error (fault 7) ∧ outcome.machine.steps = 6 ∧
      (Query.run now.table now.tape.toDatum now.state).derive.runOn (.whole 3 Table.runPurpose 0) =
        (.error (fault 4), .whole 3 Table.runPurpose 4) := by
  obtain ⟨machine, hmachine, hruns⟩ := fault_counts_all_runs ofDatum_walker Tape.blank 0
  obtain ⟨-, hends, -⟩ := hruns {} [.tick, .run (.int 2) true] 3 false
  have hstart := (ofData_eq_start ofDatum_walker Tape.blank (.int 0)).symm.trans hmachine
  obtain rfl := Except.ok.inj hstart
  rcases hends with ⟨hproper, -⟩ | hspent
  · cases hproper _ rfl trivial
  · exact ⟨ofDatum_walker, _, hmachine, rfl, hspent⟩

/-- After a run with a limit of two, the fault of a second one counts five where the tank counts
three. -/
theorem walker_overcounts :
    Table.ofDatum walker = .ok walkerTable ∧
    ∃ machine, ofData walker Tape.blank.toDatum (.int 0) = .ok machine ∧
      let now := machine.after [.run (.int 2) false]
      let fault (spent : ℤ) := Fault.budgetExceeded (.int 2) (.int spent) Table.runPurpose
      (now.run (.int 2) false).result = .error (fault 5) ∧
      (Query.run now.table now.tape.toDatum now.state).derive.runOn (.whole 2 Table.runPurpose 0) =
        (.error (fault 3), .whole 2 Table.runPurpose 3) :=
  ⟨rfl, _, rfl, rfl, rfl⟩

end Metered.Machine
