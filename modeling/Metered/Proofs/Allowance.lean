import Mathlib.Algebra.GroupWithZero.Nat
import Mathlib.Logic.Function.Iterate
import Metered.Proofs.RecordedCells
import Metered.Proofs.Ticks
import Metered.Turing.BusyBeaver

/-!
# Allowances

A run with an allowance is so many ticks (`run_int`): the machine that it leaves is the one
that the ticks lead to, and what it ends with can be read off that machine. For a machine
comes to rest where it halts and where it has no transition to make, and every tick after
that leaves it as it is.

So it does not matter how an allowance is split into ticks and runs. What one command leaves
undone the next one does, and what one command has done the next one does not repeat, also
where the first one ended with a fault.

## Main results

* `afterTicks_cases`: the three ways in which a number of ticks ends;
* `run_int`: a run is as many ticks as its limit says;
* `IsPrepared.afterTicks_induction`: what instructions keep, ticks keep;
* `exists_after_eq`: a session leaves the machine that some number of ticks lead to, whatever the
  limits of its runs are;
* `Machine.session_eq_run`: a session leaves the machine that one run with the sum of the
  allowances leaves.
-/

namespace Metered.Machine

variable {machine : Machine} {table : Table}

/-! ### Ticks in a row -/

/-- The machine after a number of ticks. -/
def afterTicks (count : ℕ) (machine : Machine) : Machine :=
  (fun m => m.tick.2)^[count] machine

/-- A machine is at rest if it has halted or has no transition to make. -/
def IsAtRest (machine : Machine) : Prop :=
  machine.halted = true ∨ ∃ fault, machine.advance = .error fault

/-- A tick leaves a machine at rest as it is. -/
theorem IsAtRest.tick_eq (h : machine.IsAtRest) : machine.tick.2 = machine := by
  rw [tick]
  split_ifs with hhalted
  · rfl
  · obtain ⟨fault, hfault⟩ := h.resolve_left hhalted
    rw [hfault]

/-- A tick takes a machine that is not at rest to where its transition leads. -/
theorem tick_of_advance {next : Machine} (hrunning : machine.halted = false)
    (hnext : machine.advance = .ok next) : machine.tick.2 = next := by
  rw [tick, hrunning, hnext]
  rfl

/-- A transition counts as one step. -/
theorem steps_of_advance {next : Machine} (h : machine.advance = .ok next) :
    next.steps = machine.steps + 1 := by
  obtain ⟨entry, -, rfl⟩ := exists_of_map_eq_ok h
  rfl

@[simp] theorem afterTicks_zero (machine : Machine) : machine.afterTicks 0 = machine := rfl

/-- The first of several ticks comes before the others. -/
theorem afterTicks_succ (count : ℕ) (machine : Machine) :
    machine.afterTicks (count + 1) = machine.tick.2.afterTicks count :=
  Function.iterate_succ_apply _ count machine

/-- The last of several ticks comes after the others. -/
theorem afterTicks_succ' (count : ℕ) (machine : Machine) :
    machine.afterTicks (count + 1) = (machine.afterTicks count).tick.2 :=
  Function.iterate_succ_apply' _ count machine

/-- Ticks in a row can be split. -/
theorem afterTicks_add (first second : ℕ) (machine : Machine) :
    machine.afterTicks (first + second) = (machine.afterTicks first).afterTicks second := by
  rw [Nat.add_comm]
  exact Function.iterate_add_apply _ second first machine

/-- Any number of ticks leaves a machine at rest as it is. -/
theorem IsAtRest.afterTicks_eq (h : machine.IsAtRest) (count : ℕ) :
    machine.afterTicks count = machine :=
  Function.iterate_fixed h.tick_eq count

/-- **How a number of ticks ends.** There is a number of transitions that they have made.
Either the machine has halted after these, or it has no transition to make although there
are ticks left, or each tick has made a transition and the machine has not halted. -/
theorem afterTicks_cases (machine : Machine) (count : ℕ) :
    ∃ made, machine.afterTicks count = machine.afterTicks made ∧
      (machine.afterTicks made).steps = machine.steps + made ∧
      (made ≤ count ∧ (machine.afterTicks made).halted = true ∨
        made < count ∧ (machine.afterTicks made).halted = false ∧
          (∃ fault, (machine.afterTicks made).advance = .error fault) ∨
        made = count ∧ (machine.afterTicks made).halted = false) := by
  induction count with
  | zero =>
      refine ⟨0, rfl, rfl, ?_⟩
      cases hhalted : machine.halted with
      | true => exact .inl ⟨Nat.le_refl 0, hhalted⟩
      | false => exact .inr (.inr ⟨rfl, hhalted⟩)
  | succ count ih =>
      obtain ⟨made, heq, hsteps, hhalted | hstuck | hrunning⟩ := ih
      · have hrest : (machine.afterTicks made).IsAtRest := .inl hhalted.2
        refine ⟨made, ?_, hsteps, .inl ⟨by omega, hhalted.2⟩⟩
        rw [afterTicks_succ', heq, hrest.tick_eq]
      · have hrest : (machine.afterTicks made).IsAtRest := .inr hstuck.2.2
        refine ⟨made, ?_, hsteps, .inr (.inl ⟨by omega, hstuck.2⟩)⟩
        rw [afterTicks_succ', heq, hrest.tick_eq]
      · obtain ⟨rfl, hrunning⟩ := hrunning
        cases hadvance : (machine.afterTicks made).advance with
        | error fault =>
            have hrest : (machine.afterTicks made).IsAtRest := .inr ⟨fault, hadvance⟩
            refine ⟨made, ?_, hsteps, .inr (.inl ⟨by omega, hrunning, fault, hadvance⟩)⟩
            rw [afterTicks_succ', hrest.tick_eq]
        | ok next =>
            have hnext : machine.afterTicks (made + 1) = next := by
              rw [afterTicks_succ', tick_of_advance hrunning hadvance]
            refine ⟨made + 1, rfl, ?_, ?_⟩
            · rw [hnext, steps_of_advance hadvance, hsteps, Nat.add_assoc]
            · rw [hnext]
              cases hhalted : next.halted with
              | true => exact .inl ⟨Nat.le_refl _, rfl⟩
              | false => exact .inr (.inr ⟨rfl, rfl⟩)

/-! ### Runs as ticks -/

/-- What a run ends with at the machine that it has come to, where it goes on to a total of
`budget` transitions: the tape at the halt, the fault of the budget once the total is
reached, and before that the fault of the transition that fails. -/
def verdict (limit : Number) (budget : ℕ) (machine : Machine) : Except Fault (Tape Datum) :=
  if machine.halted then .ok machine.tape
  else if budget ≤ machine.steps then
    .error (.budgetExceeded limit (.int (machine.steps + 1)) Table.runPurpose)
  else machine.advance.map Machine.tape

/-- **A run within an allowance** is as many ticks, and ends with the verdict on the machine
that these lead to. -/
theorem runWithin_eq (limit : Number) (verbose : Bool) (allowance : ℕ) (machine : Machine)
    (log : List String) :
    (runWithin limit verbose allowance machine log).machine = machine.afterTicks allowance ∧
    (runWithin limit verbose allowance machine log).result =
      (machine.afterTicks allowance).verdict limit (machine.steps + allowance) := by
  induction allowance generalizing machine log with
  | zero =>
      rw [runWithin, afterTicks_zero, verdict]
      split_ifs with hhalted hbudget
      · exact ⟨rfl, rfl⟩
      · exact ⟨rfl, rfl⟩
      · exact absurd (Nat.le_refl _) hbudget
  | succ allowance ih =>
      rw [runWithin]
      by_cases hhalted : machine.halted = true
      · have hrest : machine.IsAtRest := .inl hhalted
        rw [if_pos hhalted, hrest.afterTicks_eq, verdict, if_pos hhalted]
        exact ⟨rfl, rfl⟩
      · rw [if_neg hhalted]
        cases hadvance : machine.advance with
        | error fault =>
            have hrest : machine.IsAtRest := .inr ⟨fault, hadvance⟩
            have hbudget : ¬ machine.steps + (allowance + 1) ≤ machine.steps := by omega
            rw [hrest.afterTicks_eq, verdict, if_neg hhalted, if_neg hbudget, hadvance]
            exact ⟨rfl, rfl⟩
        | ok next =>
            have hbudget : machine.steps + (allowance + 1) = next.steps + allowance := by
              rw [steps_of_advance hadvance]
              omega
            rw [afterTicks_succ, tick_of_advance (Bool.eq_false_iff.mpr hhalted) hadvance,
              hbudget]
            exact ih next _

/-- The allowance of a whole limit, however many transitions were made before. -/
theorem run_eq_runWithin (machine : Machine) (limit : ℤ) (verbose : Bool) :
    machine.run (.int limit) verbose =
      machine.runWithin (.int limit) verbose limit.toNat [] := by
  have hallowance : limit.toNat = (machine.steps + limit - machine.steps : ℤ).toNat := by omega
  rw [hallowance]
  rfl

/-- **A run is as many ticks as its limit says**, and ends with the verdict on the machine
that these lead to. -/
theorem run_int (machine : Machine) (limit : ℤ) (verbose : Bool) :
    (machine.run (.int limit) verbose).machine = machine.afterTicks limit.toNat ∧
    (machine.run (.int limit) verbose).result =
      (machine.afterTicks limit.toNat).verdict (.int limit) (machine.steps + limit.toNat) := by
  rw [run_eq_runWithin]
  exact runWithin_eq _ verbose _ machine []

/-! ### Machines with a table in normal form -/

/-- A machine is prepared if its table is in normal form and its state is an integer, which
does not have to be one of the table. -/
structure IsPrepared (machine : Machine) (table : Table) : Prop where
  table_eq : machine.table = table.toDatum
  state_eq : ∃ n : ℤ, machine.state = .int n

/-- A machine of a checked table is prepared at its start. -/
theorem isPrepared_start (table : Table) (tape : Tape Datum) (state : ℤ) :
    (start table tape (.int state)).IsPrepared table :=
  ⟨rfl, state, rfl⟩

/-- **The transition of a prepared machine** carries out the instruction of its table for its
state and the cell under its head; where there is none, the fault names the two. -/
theorem IsPrepared.advance_eq (h : machine.IsPrepared table) {n : ℤ}
    (hn : machine.state = .int n) :
    machine.advance = ((table.instructionAt n machine.tape.head).map fun instruction =>
      machine.apply instruction.toTransition).mapError fun cause =>
        .undefinedTransition cause (.int n) machine.tape.head := by
  rw [advance, h.table_eq, hn, Table.lookup_toDatum_int]
  cases table.instructionAt n machine.tape.head <;> rfl

/-- A prepared machine makes the transition of an instruction, or has none to make, and then
the fault names its state and the cell under its head. -/
theorem IsPrepared.advance_cases (h : machine.IsPrepared table) :
    (∃ instruction : Instruction,
      machine.advance = .ok (machine.apply instruction.toTransition)) ∨
    ∃ cause, machine.advance =
      .error (.undefinedTransition cause machine.state machine.tape.head) := by
  obtain ⟨n, hn⟩ := h.state_eq
  rw [h.advance_eq hn, hn]
  cases table.instructionAt n machine.tape.head with
  | ok instruction => exact .inl ⟨instruction, rfl⟩
  | error cause => exact .inr ⟨cause, rfl⟩

/-- A transition that fails in a prepared machine has no entry. -/
theorem IsPrepared.exists_cause (h : machine.IsPrepared table) {fault : Fault}
    (hfault : machine.advance = .error fault) :
    ∃ cause, fault = .undefinedTransition cause machine.state machine.tape.head := by
  rcases h.advance_cases with ⟨instruction, hok⟩ | ⟨cause, herror⟩
  · cases hok.symm.trans hfault
  · exact ⟨cause, Except.error.inj (hfault.symm.trans herror)⟩

/-- A tick leaves a prepared machine as it is or carries out an instruction. -/
theorem IsPrepared.tick_cases (h : machine.IsPrepared table) :
    machine.tick.2 = machine ∨
      ∃ instruction : Instruction, machine.tick.2 = machine.apply instruction.toTransition := by
  cases hhalted : machine.halted with
  | true =>
      have hrest : machine.IsAtRest := .inl hhalted
      exact .inl hrest.tick_eq
  | false =>
      rcases h.advance_cases with ⟨instruction, hadvance⟩ | ⟨cause, hadvance⟩
      · exact .inr ⟨instruction, tick_of_advance hhalted hadvance⟩
      · have hrest : machine.IsAtRest := .inr ⟨_, hadvance⟩
        exact .inl hrest.tick_eq

/-- A tick leaves a prepared machine prepared. -/
theorem IsPrepared.tick (h : machine.IsPrepared table) : machine.tick.2.IsPrepared table := by
  rcases h.tick_cases with hrest | ⟨instruction, hnext⟩
  · rwa [hrest]
  · rw [hnext]
    exact ⟨h.table_eq, instruction.nextNumber, rfl⟩

/-- Ticks leave a prepared machine prepared. -/
theorem IsPrepared.afterTicks (h : machine.IsPrepared table) (count : ℕ) :
    (machine.afterTicks count).IsPrepared table := by
  induction count with
  | zero => exact h
  | succ count ih =>
      rw [afterTicks_succ']
      exact ih.tick

/-- **Invariants of ticks.** What holds of a prepared machine, and of a machine after an
instruction if it held before, holds after any number of ticks. -/
theorem IsPrepared.afterTicks_induction (h : machine.IsPrepared table) {P : Machine → Prop}
    (hstart : P machine)
    (happly : ∀ (m : Machine) (instruction : Instruction),
      P m → P (m.apply instruction.toTransition))
    (count : ℕ) : P (machine.afterTicks count) := by
  induction count with
  | zero => exact hstart
  | succ count ih =>
      rw [afterTicks_succ']
      rcases (h.afterTicks count).tick_cases with hrest | ⟨instruction, hnext⟩
      · rwa [hrest]
      · rw [hnext]
        exact happly _ instruction ih

/-- What holds of every bit and of every recorded cell of a prepared machine holds of every
recorded cell after any number of ticks. -/
theorem IsPrepared.forall_mem_cells (h : machine.IsPrepared table) {P : Datum → Prop}
    (hbit : ∀ bit, P (.ofBit bit)) (hcells : ∀ cell ∈ machine.tape.cells, P cell) (count : ℕ) :
    ∀ cell ∈ (machine.afterTicks count).tape.cells, P cell :=
  h.afterTicks_induction hcells
    (fun _ instruction hm => Tape.forall_mem_cells_move hbit hm _ instruction.write) count

/-! ### Commands -/

/-- The limit of a run and the number of transitions that it allows for after `steps` of them. -/
def allowed (settings : Settings) (steps : ℕ) (limit : Datum) : Except Fault (Number × ℕ) := do
  let limit ← limitOf settings limit
  let allowance ← allowance steps limit
  pure (limit, allowance)

/-- A run is within an allowance that depends on the limit and the transitions made before, or
ends with the fault of its limit. -/
theorem run_eq (machine : Machine) (limit : Datum) (verbose : Bool) (settings : Settings) :
    machine.run limit verbose settings = match allowed settings machine.steps limit with
      | .ok (limit, allowance) => machine.runWithin limit verbose allowance []
      | .error fault => ⟨.error fault, machine, []⟩ := rfl

/-- **Whatever the command is**, it leaves the machine that some number of ticks lead to. -/
theorem exists_perform_eq (machine : Machine) (command : Command) (settings : Settings) :
    ∃ count, (machine.perform command settings).2 = machine.afterTicks count := by
  cases command with
  | tick => exact ⟨1, rfl⟩
  | run limit verbose =>
      change ∃ count, (machine.run limit verbose settings).machine = machine.afterTicks count
      rw [run_eq]
      rcases allowed settings machine.steps limit with fault | ⟨limit, allowance⟩
      · exact ⟨0, rfl⟩
      · exact ⟨allowance, (runWithin_eq limit verbose allowance machine []).1⟩

/-- The machine that a session leaves: the one after its last command, or the one that it
began with. -/
def after (machine : Machine) (commands : List Command) (settings : Settings := {}) : Machine :=
  ((machine.session commands settings).map Prod.snd).getLastD machine

/-- A session goes on with the machine that its first command leaves. -/
theorem after_cons (machine : Machine) (command : Command) (rest : List Command)
    (settings : Settings) :
    machine.after (command :: rest) settings =
      (machine.perform command settings).2.after rest settings := by
  rw [after, session, List.map_cons, List.getLastD_cons]
  rfl

/-- A session leaves the machine that some number of ticks lead to. -/
theorem exists_after_eq (machine : Machine) (commands : List Command) (settings : Settings) :
    ∃ count, machine.after commands settings = machine.afterTicks count := by
  induction commands generalizing machine with
  | nil => exact ⟨0, rfl⟩
  | cons command rest ih =>
      obtain ⟨first, hfirst⟩ := machine.exists_perform_eq command settings
      obtain ⟨second, hsecond⟩ := ih (machine.perform command settings).2
      refine ⟨first + second, ?_⟩
      rw [after_cons, hsecond, hfirst, afterTicks_add]

/-! ### Commands with an allowance -/

/-- A command with a whole allowance: a tick, or a run with an integer for a limit or with
none. -/
inductive Call where
  | tick
  | run (limit : Option ℤ) (verbose : Bool)

/-- The command of a call. -/
def Call.command : Call → Command
  | tick => .tick
  | run limit verbose => .run (limit.elim .null .int) verbose

/-- The number of transitions that a call may make. -/
def Call.allowance (settings : Settings) : Call → ℕ
  | tick => 1
  | run limit _ => (limit.getD settings.transitions).toNat

/-- A run without a limit is one with that of the settings. -/
theorem run_elim (machine : Machine) (limit : Option ℤ) (verbose : Bool) (settings : Settings) :
    machine.run (limit.elim .null .int) verbose settings =
      machine.run (.int (limit.getD settings.transitions)) verbose := by
  cases limit <;> rfl

/-- A call leaves the machine that as many ticks lead to as it allows for. -/
theorem perform_call (machine : Machine) (call : Call) (settings : Settings) :
    (machine.perform call.command settings).2 =
      machine.afterTicks (call.allowance settings) := by
  cases call with
  | tick => rfl
  | run limit verbose =>
      change (machine.run (limit.elim .null .int) verbose settings).machine = _
      rw [run_elim]
      exact (run_int machine _ verbose).1

/-- **A session leaves** the machine that as many ticks lead to as its calls allow for
together. -/
theorem after_calls (machine : Machine) (calls : List Call) (settings : Settings) :
    machine.after (calls.map Call.command) settings =
      machine.afterTicks (calls.map (Call.allowance settings)).sum := by
  induction calls generalizing machine with
  | nil => rfl
  | cons call rest ih =>
      rw [List.map_cons, after_cons, perform_call, ih, List.map_cons, List.sum_cons,
        afterTicks_add]

/-! ### Split allowances -/

/-- Two results are of the same kind: the same tape, the same fault of a table, or the fault
of a budget. -/
inductive SameKind : Except Fault (Tape Datum) → Except Fault (Tape Datum) → Prop
  | halted (tape : Tape Datum) : SameKind (.ok tape) (.ok tape)
  | stuck (cause : TableFault) (state bit : Datum) :
      SameKind (.error (.undefinedTransition cause state bit))
        (.error (.undefinedTransition cause state bit))
  | exceeded (limit limit' spent : Number) (what : String) :
      SameKind (.error (.budgetExceeded limit spent what))
        (.error (.budgetExceeded limit' spent what))

/-- Verdicts for one budget are of the same kind, whatever limit they name. -/
theorem IsPrepared.sameKind_verdict (h : machine.IsPrepared table) (limit limit' : Number)
    (budget : ℕ) : SameKind (machine.verdict limit budget) (machine.verdict limit' budget) := by
  rw [verdict, verdict]
  split_ifs with hhalted hbudget
  · exact .halted _
  · exact .exceeded ..
  · rcases h.advance_cases with ⟨instruction, hadvance⟩ | ⟨cause, hadvance⟩
    · rw [hadvance]
      exact .halted _
    · rw [hadvance]
      exact .stuck ..

/-- A verdict is that a transition fails, unless the machine has halted or made as many
transitions as it was allowed. -/
theorem IsPrepared.verdict_afterTicks (h : machine.IsPrepared table) (limit : Number)
    (count : ℕ) :
    (∃ cause state bit, (machine.afterTicks count).verdict limit (machine.steps + count) =
      .error (.undefinedTransition cause state bit)) ∨
    (machine.afterTicks count).halted = true ∨
    (machine.afterTicks count).steps = machine.steps + count := by
  obtain ⟨made, heq, hsteps, ⟨-, hhalted⟩ | ⟨hlt, hrunning, fault, hfault⟩ | ⟨rfl, -⟩⟩ :=
    afterTicks_cases machine count
  · rw [heq]
    exact .inr (.inl hhalted)
  · rw [heq, verdict, if_neg (Bool.eq_false_iff.mp hrunning), if_neg (by omega)]
    obtain ⟨cause, rfl⟩ := (h.afterTicks made).exists_cause hfault
    exact .inl ⟨cause, _, _, by rw [hfault]; rfl⟩
  · exact .inr (.inr hsteps)

/-- **Two runs in turn** leave the machine that a single run with both limits leaves. The
second one ends in the same way as the single one, unless a transition failed in the
first. -/
theorem IsPrepared.run_run (h : machine.IsPrepared table) (m n : ℕ)
    (verbose verbose' verbose'' : Bool) :
    let first := machine.run (.int m) verbose
    let second := first.machine.run (.int n) verbose'
    let single := machine.run (.int (m + n : ℕ)) verbose''
    second.machine = single.machine ∧
      ((∃ cause state bit, first.result = .error (.undefinedTransition cause state bit)) ∨
        SameKind second.result single.result) := by
  intro first second single
  obtain ⟨hfirst, hresult⟩ : first.machine = machine.afterTicks m ∧
      first.result = (machine.afterTicks m).verdict (.int m) (machine.steps + m) :=
    run_int machine m verbose
  obtain ⟨hsecond, hresult'⟩ : second.machine = first.machine.afterTicks n ∧
      second.result = (first.machine.afterTicks n).verdict (.int n) (first.machine.steps + n) :=
    run_int first.machine n verbose'
  obtain ⟨hsingle, hresult''⟩ : single.machine = machine.afterTicks (m + n) ∧
      single.result =
        (machine.afterTicks (m + n)).verdict (.int (m + n : ℕ)) (machine.steps + (m + n)) :=
    run_int machine (m + n : ℕ) verbose''
  rw [afterTicks_add, ← hfirst] at hsingle hresult''
  refine ⟨hsecond.trans hsingle.symm, ?_⟩
  rcases h.verdict_afterTicks (.int m) m with ⟨cause, state, bit, hstuck⟩ | hhalted | hsteps
  · exact .inl ⟨cause, state, bit, hresult.trans hstuck⟩
  · rw [← hfirst] at hhalted
    have hrest : first.machine.IsAtRest := .inl hhalted
    rw [hrest.afterTicks_eq, verdict, if_pos hhalted] at hresult' hresult''
    rw [hresult', hresult'']
    exact .inr (.halted _)
  · have hbudget : first.machine.steps + n = machine.steps + (m + n) := by
      rw [hfirst, hsteps, Nat.add_assoc]
    rw [hresult', hresult'', ← hbudget, hfirst]
    exact .inr (((h.afterTicks m).afterTicks n).sameKind_verdict _ _ _)

/-- **Only the sum of the allowances counts.** A table that passes its check, a tape and an
integer for a state make a machine. A session of ticks and runs, whatever they end with and
whatever the settings are, leaves it as a single run with the sum of their allowances does. After a
run in which no transition failed, a second run ends in the same way as a single run with both
limits. -/
theorem session_eq_run {raw : Datum} (h : Table.ofDatum raw = .ok table) (tape : Tape Datum)
    (state : ℤ) :
    ∃ machine, ofData raw tape.toDatum (.int state) = .ok machine ∧
      (∀ (settings : Settings) (calls : List Call),
        machine.after (calls.map Call.command) settings =
          (machine.run (.int (calls.map (Call.allowance settings)).sum) false).machine) ∧
      ∀ (m n : ℕ) (verbose verbose' verbose'' : Bool),
        let first := machine.run (.int m) verbose
        let second := first.machine.run (.int n) verbose'
        let single := machine.run (.int (m + n : ℕ)) verbose''
        second.machine = single.machine ∧
          ((∃ cause state bit, first.result = .error (.undefinedTransition cause state bit)) ∨
            SameKind second.result single.result) := by
  refine ⟨_, ofData_eq_start h tape (.int state), fun settings calls => ?_, fun m n => ?_⟩
  · rw [after_calls, (run_int _ _ false).1, Int.toNat_natCast]
  · exact (isPrepared_start table tape state).run_run m n

/-! ### A machine that does not halt -/

/-- The table of one state that writes a one and moves to the right, whatever the bit is. -/
def walker : Datum :=
  .tuple [BusyBeaver.state (BusyBeaver.entry 1 "R" 0) (BusyBeaver.entry 1 "R" 0)]

/-- The walker, checked. -/
def walkerTable : Table where
  states := [⟨⟨true, .right, some 0⟩, ⟨true, .right, some 0⟩⟩]

/-- The walker passes its check. -/
theorem ofDatum_walker : Table.ofDatum walker = .ok walkerTable := rfl

/-- The walker gets stuck after two transitions, at a cell that is no bit, and stays there
however its allowance goes on. -/
theorem walker_split :
    Table.ofDatum walker = .ok walkerTable ∧
    ∃ machine, ofData walker (Tape.mk [] 0 [0, .int 2]).toDatum (.int 0) = .ok machine ∧
      machine.after ([.run (some 1) true, .tick, .tick, .run none false].map Call.command) =
        (machine.run (.int 100003) false).machine ∧
      let first := machine.run (.int 1) false
      let second := first.machine.run (.int 5) true
      let single := machine.run (.int 6) false
      second.machine = single.machine ∧
        ((∃ cause state bit, first.result = .error (.undefinedTransition cause state bit)) ∨
          SameKind second.result single.result) := by
  obtain ⟨machine, hmachine, hsession, hruns⟩ :=
    session_eq_run ofDatum_walker ⟨[], 0, [0, .int 2]⟩ 0
  exact ⟨ofDatum_walker, machine, hmachine, hsession {} _, hruns 1 5 false true false⟩

end Metered.Machine
