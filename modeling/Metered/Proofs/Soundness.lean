import Metered.Proofs.Allowance

/-!
# Machines That Do Not Get Stuck

The check of a table is made once, before a machine starts, and what it promises holds for
every run. The machine stays **well formed**: its state is one of the table or the halt, and
every cell that is recorded is a bit. So each look-up finds an instruction, which writes a
bit and goes on within the table, and the one fault that is left is that of a budget.

## Main results

* `IsWellFormed.advance`: a well-formed machine that has not halted has a transition to make;
* `IsWellFormed.tick`, `IsWellFormed.afterTicks`: ticks leave it well formed;
* `Machine.wellFormed_after_calls`: no call on a machine of a checked table and a tape of bits
  ends with a fault but that of a budget, and without a way to the halt every run does.
-/

namespace Metered

namespace Machine

variable {machine : Machine} {table : Table}

/-! ### Well-formed machines -/

/-- A machine is well formed if its table is in normal form, its state is the halt or one of
the table, and every recorded cell is a bit. -/
structure IsWellFormed (machine : Machine) (table : Table) : Prop where
  table_eq : machine.table = table.toDatum
  state_cases : machine.state = .int haltState ∨
    ∃ s : ℕ, s < table.states.length ∧ machine.state = .int s
  cells_cases : ∀ cell ∈ machine.tape.cells, cell = .int 0 ∨ cell = .int 1

/-- A bit is one of two integers. -/
theorem ofBit_cases (bit : Bool) : Datum.ofBit bit = .int 0 ∨ Datum.ofBit bit = .int 1 := by
  cases bit with
  | false => exact .inl rfl
  | true => exact .inr rfl

/-- The number of a state of a table, or of the halt. -/
theorem stateNumber_cases {count : ℕ} {state : Option ℕ} (h : ∀ s ∈ state, s < count) :
    Datum.int (stateNumber state) = .int haltState ∨
      ∃ s : ℕ, s < count ∧ Datum.int (stateNumber state) = .int s := by
  cases state with
  | none => exact .inl rfl
  | some s => exact .inr ⟨s, h s rfl, rfl⟩

/-- The number of a state is not that of the halt. -/
theorem isHalt_eq_false_of_ne_none {state : Option ℕ} (h : state ≠ none) :
    isHalt (.int (stateNumber state)) = false := by
  cases state with
  | none => exact absurd rfl h
  | some s => rfl

/-- A machine starts well formed on a tape of bits. -/
theorem isWellFormed_start {state : Option ℕ} (h : ∀ s ∈ state, s < table.states.length)
    (tape : Tape Bool) :
    (start table (tape.map .ofBit) (.int (stateNumber state))).IsWellFormed table where
  table_eq := rfl
  state_cases := stateNumber_cases h
  cells_cases cell hcell := by
    have hbits : (tape.map Datum.ofBit).cells = tape.cells.map Datum.ofBit := by
      simp [Tape.map, Tape.cells]
    obtain ⟨bit, -, rfl⟩ := List.mem_map.mp (hbits ▸ hcell)
    exact ofBit_cases bit

/-- An instruction that stays within the table leaves a machine well formed. -/
theorem IsWellFormed.apply (h : machine.IsWellFormed table) {instruction : Instruction}
    (hwithin : instruction.IsWithin table.states.length) :
    (machine.apply instruction.toTransition).IsWellFormed table where
  table_eq := h.table_eq
  state_cases := stateNumber_cases hwithin
  cells_cases := Tape.forall_mem_cells_move ofBit_cases h.cells_cases _ instruction.write

/-- A well-formed machine that has not halted is in a state of its table and has a bit under its
head. -/
theorem IsWellFormed.exists_state (h : machine.IsWellFormed table)
    (hrunning : machine.halted = false) :
    ∃ (s : ℕ) (bit : Bool), s < table.states.length ∧ machine.state = .int s ∧
      machine.tape.head = .ofBit bit := by
  rcases h.state_cases with hhalt | ⟨s, hs, hstate⟩
  · rw [halted, hhalt] at hrunning
    cases hrunning
  · rcases h.cells_cases _ machine.tape.head_mem_cells with hzero | hone
    · exact ⟨s, false, hs, hstate, hzero⟩
    · exact ⟨s, true, hs, hstate, hone⟩

/-- **Progress.** A well-formed machine that has not halted has the instruction of a state of
its table to carry out. -/
theorem IsWellFormed.advance (h : machine.IsWellFormed table) (hrunning : machine.halted = false) :
    ∃ state ∈ table.states, ∃ bit,
      machine.advance = .ok (machine.apply (state.instruction bit).toTransition) := by
  obtain ⟨s, bit, hs, hstate, hbit⟩ := h.exists_state hrunning
  refine ⟨table.states[s], List.getElem_mem hs, bit, ?_⟩
  rw [Machine.advance, h.table_eq, hstate, hbit, Table.lookup_toDatum hs]
  rfl

/-- **Preservation.** A tick leaves a machine well formed. -/
theorem IsWellFormed.tick (h : machine.IsWellFormed table) (hclosed : table.IsClosed) :
    machine.tick.2.IsWellFormed table := by
  cases hhalted : machine.halted with
  | true =>
      have hrest : machine.IsAtRest := .inl hhalted
      rwa [hrest.tick_eq]
  | false =>
      obtain ⟨state, hstate, bit, hadvance⟩ := h.advance hhalted
      rw [tick_of_advance hhalted hadvance]
      exact h.apply (hclosed state hstate bit)

/-- Ticks leave a machine well formed. -/
theorem IsWellFormed.afterTicks (h : machine.IsWellFormed table) (hclosed : table.IsClosed)
    (count : ℕ) : (machine.afterTicks count).IsWellFormed table := by
  induction count with
  | zero => exact h
  | succ count ih =>
      rw [afterTicks_succ']
      exact ih.tick hclosed

/-! ### Calls on well-formed machines -/

/-- A reply is regular if it is no fault, or that of the budget of a run. -/
def Reply.IsRegular : Reply → Prop
  | ticked result => ∃ running, result = .ok running
  | ran result _ => (∃ tape, result = .ok tape) ∨
      ∃ limit spent, result = .error (.budgetExceeded limit spent Table.runPurpose)

/-- The reply of a well-formed machine to a call is regular. -/
theorem IsWellFormed.isRegular_perform (h : machine.IsWellFormed table)
    (hclosed : table.IsClosed) (settings : Settings) (call : Call) :
    (machine.perform call.command settings).1.IsRegular := by
  cases call with
  | tick =>
      change ∃ running, machine.tick.1 = .ok running
      cases hhalted : machine.halted with
      | true => exact ⟨false, by rw [tick_of_halted hhalted]⟩
      | false =>
          obtain ⟨state, -, bit, hadvance⟩ := h.advance hhalted
          exact ⟨_, by rw [Machine.tick, hhalted, hadvance]; rfl⟩
  | run limit verbose =>
      change (∃ tape, (machine.run (limit.elim .null .int) verbose settings).result = .ok tape) ∨ _
      rw [run_elim, (run_int machine _ verbose).2, verdict]
      have hlast := h.afterTicks hclosed (limit.getD settings.transitions).toNat
      split_ifs with hhalted hbudget
      · exact .inl ⟨_, rfl⟩
      · exact .inr ⟨_, _, rfl⟩
      · obtain ⟨state, -, bit, hadvance⟩ := hlast.advance (Bool.eq_false_iff.mpr hhalted)
        exact .inl ⟨_, by rw [hadvance]; rfl⟩

/-! ### Tables without a way to the halt -/

/-- No number of ticks takes a well-formed machine to the halt if it has not halted and no
instruction of its table does. -/
theorem IsWellFormed.halted_afterTicks (h : machine.IsWellFormed table)
    (hclosed : table.IsClosed)
    (hendless : ∀ state ∈ table.states, ∀ bit, (state.instruction bit).next ≠ none)
    (hrunning : machine.halted = false) (count : ℕ) :
    (machine.afterTicks count).halted = false := by
  induction count with
  | zero => exact hrunning
  | succ count ih =>
      obtain ⟨state, hstate, bit, hadvance⟩ := (h.afterTicks hclosed count).advance ih
      rw [afterTicks_succ', tick_of_advance ih hadvance]
      exact isHalt_eq_false_of_ne_none (hendless state hstate bit)

/-- Such a machine makes a transition with every tick. -/
theorem IsWellFormed.steps_afterTicks (h : machine.IsWellFormed table)
    (hclosed : table.IsClosed)
    (hendless : ∀ state ∈ table.states, ∀ bit, (state.instruction bit).next ≠ none)
    (hrunning : machine.halted = false) (count : ℕ) :
    (machine.afterTicks count).steps = machine.steps + count := by
  obtain ⟨made, heq, hsteps, ⟨-, hhalted⟩ | ⟨-, hnot, fault, hfault⟩ | ⟨rfl, -⟩⟩ :=
    afterTicks_cases machine count
  · have hnot := h.halted_afterTicks hclosed hendless hrunning made
    cases hhalted.symm.trans hnot
  · obtain ⟨state, -, bit, hadvance⟩ := (h.afterTicks hclosed made).advance hnot
    cases hadvance.symm.trans hfault
  · exact hsteps

/-- **Checked machines do not get stuck.** Let a table pass its check, and let a machine start on a
tape of bits in a state of the table or at the halt. After any session of ticks and runs its state
is one of the table or the halt, every recorded cell is a bit, and the reply to the next call is no
fault but that of the budget of a run, whatever the settings are. If the machine does not start at
the halt and no instruction of the table leads there, it never halts, and every run makes as many
transitions as its limit says and ends with the fault of its budget. -/
theorem wellFormed_after_calls {raw : Datum} (h : Table.ofDatum raw = .ok table) (tape : Tape Bool)
    {state : Option ℕ} (hstate : ∀ s ∈ state, s < table.states.length) :
    ∃ machine,
      ofData raw (tape.map .ofBit).toDatum (.int (stateNumber state)) = .ok machine ∧
      ∀ (settings : Settings) (calls : List Call),
        let now := machine.after (calls.map Call.command) settings
        (now.state = .int haltState ∨ ∃ s : ℕ, s < table.states.length ∧ now.state = .int s) ∧
        (∀ cell ∈ now.tape.cells, cell = .int 0 ∨ cell = .int 1) ∧
        (∀ call : Call, (now.perform call.command settings).1.IsRegular) ∧
        (state ≠ none → (∀ s ∈ table.states, ∀ bit, (s.instruction bit).next ≠ none) →
          now.halted = false ∧
          ∀ (limit : ℕ) (verbose : Bool),
            let outcome := now.run (.int limit) verbose
            outcome.result = .error (.budgetExceeded (.int limit) (.int (now.steps + limit + 1))
              Table.runPurpose) ∧
            outcome.machine.steps = now.steps + limit) := by
  have hclosed := Table.isClosed_of_ofDatum h
  refine ⟨_, ofData_eq_start h _ _, fun settings calls => ?_⟩
  intro now
  have hnow : now = (start table (tape.map .ofBit) (.int (stateNumber state))).afterTicks
      (calls.map (Call.allowance settings)).sum := after_calls _ calls settings
  have hstart := isWellFormed_start hstate tape
  have hformed : now.IsWellFormed table := hnow ▸ hstart.afterTicks hclosed _
  refine ⟨hformed.state_cases, hformed.cells_cases, hformed.isRegular_perform hclosed settings, ?_⟩
  intro hsome hendless
  have hrunning : now.halted = false := by
    rw [hnow]
    exact hstart.halted_afterTicks hclosed hendless (isHalt_eq_false_of_ne_none hsome) _
  refine ⟨hrunning, fun limit verbose => ?_⟩
  intro outcome
  obtain ⟨hmachine, hresult⟩ : outcome.machine = now.afterTicks limit ∧
      outcome.result = (now.afterTicks limit).verdict (.int limit) (now.steps + limit) :=
    run_int now limit verbose
  have hsteps := hformed.steps_afterTicks hclosed hendless hrunning limit
  have hlast := hformed.halted_afterTicks hclosed hendless hrunning limit
  rw [hresult, hmachine, verdict, hlast, hsteps]
  exact ⟨by simp, rfl⟩

/-- The walker starts in its only state and never halts: each run goes on to its limit, from
wherever the calls before have left the machine. -/
theorem walker_wellFormed :
    Table.ofDatum walker = .ok walkerTable ∧ (∀ s ∈ some 0, s < walkerTable.states.length) ∧
    some 0 ≠ none ∧ (∀ s ∈ walkerTable.states, ∀ bit, (s.instruction bit).next ≠ none) ∧
    ∃ machine,
      ofData walker ((Tape.mk [true] false [true, false]).map .ofBit).toDatum
        (.int (stateNumber (some 0))) = .ok machine ∧
      ∀ calls : List Call,
        let now := machine.after (calls.map Call.command)
        (∀ cell ∈ now.tape.cells, cell = .int 0 ∨ cell = .int 1) ∧
        (∀ call : Call, (now.perform call.command).1.IsRegular) ∧ now.halted = false ∧
        (now.run (.int 7) true).result =
          .error (.budgetExceeded (.int 7) (.int (now.steps + 7 + 1)) Table.runPurpose) ∧
        (now.run (.int 7) true).machine.steps = now.steps + 7 := by
  have hstate : ∀ s ∈ some 0, s < walkerTable.states.length := by decide
  have hendless : ∀ s ∈ walkerTable.states, ∀ bit, (s.instruction bit).next ≠ none := by decide
  refine ⟨ofDatum_walker, hstate, Option.some_ne_none 0, hendless, ?_⟩
  obtain ⟨machine, hmachine, hcalls⟩ :=
    wellFormed_after_calls ofDatum_walker ⟨[true], false, [true, false]⟩ hstate
  refine ⟨machine, hmachine, fun calls => ?_⟩
  obtain ⟨-, hcells, hregular, hforever⟩ := hcalls {} calls
  obtain ⟨hrunning, hruns⟩ := hforever (Option.some_ne_none 0) hendless
  exact ⟨hcells, hregular, hrunning, hruns 7 true⟩

end Machine

end Metered
