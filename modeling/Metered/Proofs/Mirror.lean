import Metered.Proofs.Allowance

/-!
# Left and Right Exchanged

Nothing but its two names tells left from right. The reflection of a table moves the other way
with every instruction, and the reflection of a tape has its two sides exchanged. A machine of
the one on the one goes in step with a machine of the other on the other: each command takes a
machine and its reflection to a machine and its reflection again, whatever it ends with.

## Main results

* `Tape.move_reflect`: a move the other way on the reflected tape;
* `Table.ofDatum_reflect`: the reflection of a checked table passes the check;
* `Machine.IsPrepared.tick_reflect`, `Machine.IsPrepared.afterTicks_reflect`: ticks commute with
  reflection;
* `Machine.session_mirrors`: a machine and its reflection under the same commands.
-/

namespace Metered

/-! ### Reflected tapes -/

namespace Tape

variable {α : Type}

/-- **Moves on the reflection** go the other way. -/
theorem move_reflect [Zero α] (tape : Tape α) (direction : Direction) (cell : α) :
    tape.reflect.move direction.opposite cell = (tape.move direction cell).reflect := by
  cases direction <;> rfl

/-- The reflection has the same cells in reverse. -/
theorem cells_reflect (tape : Tape α) : tape.reflect.cells = tape.cells.reverse := by
  simp [reflect, cells]

/-- The reflection has as many cells. -/
theorem width_reflect (tape : Tape α) : tape.reflect.width = tape.width := by
  rw [← length_cells, ← length_cells, cells_reflect, List.length_reverse]

/-- The cells of the reflection have the same sum. -/
theorem ones_reflect {tape : Tape Datum} (h : tape.IsIntegral) :
    tape.reflect.ones = tape.ones := by
  have hreflect : tape.reflect.IsIntegral := by
    intro cell hcell
    rw [cells_reflect, List.mem_reverse] at hcell
    exact h cell hcell
  have htotal : tape.reflect.total = tape.total := by
    rw [total, total, cells_reflect, List.map_reverse, List.sum_reverse]
  rw [ones_eq_total hreflect, ones_eq_total h, htotal]

end Tape

/-! ### Reflected tables -/

/-- The instruction that moves the other way. -/
def Instruction.reflect (instruction : Instruction) : Instruction :=
  { instruction with move := instruction.move.opposite }

/-- The state whose instructions move the other way. -/
def State.reflect (state : State) : State :=
  ⟨state.onZero.reflect, state.onOne.reflect⟩

/-- The instructions of the reflection of a state. -/
theorem State.instruction_reflect (state : State) (bit : Bool) :
    state.reflect.instruction bit = (state.instruction bit).reflect := by
  cases bit <;> rfl

namespace Table

/-- The table whose instructions move the other way. -/
def reflect (table : Table) : Table :=
  ⟨table.states.map State.reflect⟩

/-- The instruction of the reflection of a table, or the same reason why there is none. -/
theorem instructionAt_reflect (table : Table) (state : ℤ) (cell : Datum) :
    table.reflect.instructionAt state cell =
      (table.instructionAt state cell).map Instruction.reflect := by
  rw [instructionAt, instructionAt, reflect, List.getElem?_map]
  split_ifs with hlow
  · rfl
  · cases table.states[state.toNat]? with
    | none => rfl
    | some found =>
        cases cell.bit? with
        | none => rfl
        | some bit => exact congrArg Except.ok (found.instruction_reflect bit)

/-- The reflection of a closed table is closed. -/
theorem IsClosed.reflect {table : Table} (h : table.IsClosed) : table.reflect.IsClosed := by
  intro state hstate bit
  obtain ⟨original, horiginal, rfl⟩ := List.mem_map.mp hstate
  rw [State.instruction_reflect, Table.reflect, List.length_map]
  exact h original horiginal bit

/-- **The reflection of a checked table** passes the check. -/
theorem ofDatum_reflect {raw : Datum} {table : Table} (h : ofDatum raw = .ok table) :
    ofDatum table.reflect.toDatum = .ok table.reflect := by
  have hne : table.reflect.states ≠ [] := by
    intro hnil
    exact states_ne_nil_of_ofDatum h (List.map_eq_nil_iff.mp hnil)
  exact ofDatum_toDatum (isClosed_of_ofDatum h).reflect hne

end Table

/-! ### Reflected machines -/

namespace Machine

variable {machine : Machine} {table : Table}

/-- The reflection of a machine with a table: the reflections of the table and the tape, with the
counters of the moves exchanged, and the state and the other counters as they are. -/
def reflect (table : Table) (machine : Machine) : Machine :=
  { machine with
    table := table.reflect.toDatum
    tape := machine.tape.reflect
    leftMoves := machine.rightMoves
    rightMoves := machine.leftMoves }

/-- The reflection of a machine at its start is one at its start. -/
theorem start_reflect (table : Table) (tape : Tape Datum) (state : Datum) :
    start table.reflect tape.reflect state = (start table tape state).reflect table := by
  rw [start, Tape.width_reflect]
  rfl

/-- **An instruction and its reflection** take a machine and its reflection to a machine and its
reflection. -/
theorem apply_reflect (machine : Machine) (table : Table) (instruction : Instruction) :
    (machine.reflect table).apply instruction.reflect.toTransition =
      (machine.apply instruction.toTransition).reflect table := by
  have htape : instruction.reflect.toTransition.apply machine.tape.reflect =
      (instruction.toTransition.apply machine.tape).reflect := by
    rw [Transition.apply, Transition.apply, Instruction.heading_toTransition,
      Instruction.heading_toTransition]
    exact Tape.move_reflect machine.tape instruction.move (.ofBit instruction.write)
  simp only [apply, reflect, htape, Tape.width_reflect, Instruction.heading_toTransition]
  obtain ⟨write, move, next⟩ := instruction
  cases move <;> rfl

/-- The transition of the reflection of a machine is the reflection of its transition, or fails
with the same fault. -/
theorem IsPrepared.advance_reflect (h : machine.IsPrepared table) :
    (machine.reflect table).advance = machine.advance.map (reflect table) := by
  obtain ⟨n, hn⟩ := h.state_eq
  have hreflect : (machine.reflect table).IsPrepared table.reflect := ⟨rfl, n, hn⟩
  have hhead : (machine.reflect table).tape.head = machine.tape.head := rfl
  rw [h.advance_eq hn, hreflect.advance_eq hn, hhead, Table.instructionAt_reflect]
  cases table.instructionAt n machine.tape.head with
  | error cause => rfl
  | ok instruction => exact congrArg Except.ok (machine.apply_reflect table instruction)

/-- **Ticks commute with reflection.** -/
theorem IsPrepared.tick_reflect (h : machine.IsPrepared table) :
    (machine.reflect table).tick = (machine.tick.1, machine.tick.2.reflect table) := by
  have hhalted : (machine.reflect table).halted = machine.halted := rfl
  rw [Machine.tick, Machine.tick, hhalted, h.advance_reflect]
  split_ifs
  · rfl
  · cases machine.advance <;> rfl

/-- Any number of ticks commutes with reflection. -/
theorem IsPrepared.afterTicks_reflect (h : machine.IsPrepared table) (count : ℕ) :
    (machine.reflect table).afterTicks count = (machine.afterTicks count).reflect table := by
  induction count with
  | zero => rfl
  | succ count ih =>
      rw [afterTicks_succ', afterTicks_succ', ih, (h.afterTicks count).tick_reflect]

/-- The verdict on the reflection of a machine is the reflection of the tape that it has halted
with, or the same fault. -/
theorem IsPrepared.verdict_reflect (h : machine.IsPrepared table) (limit : Number)
    (budget : ℕ) :
    (machine.reflect table).verdict limit budget =
      (machine.verdict limit budget).map Tape.reflect := by
  have hhalted : (machine.reflect table).halted = machine.halted := rfl
  have hsteps : (machine.reflect table).steps = machine.steps := rfl
  rw [verdict, verdict, hhalted, hsteps, h.advance_reflect]
  split_ifs
  · rfl
  · rfl
  · cases machine.advance <;> rfl

/-! ### Commands on reflected machines -/

/-- A reply mirrors another one: they tell the same of a tick, and of a run the reflection of the
tape that it ends with, or the same fault. -/
def Reply.Mirrors : Reply → Reply → Prop
  | ticked result, ticked result' => result = result'
  | ran result _, ran result' _ => result = result'.map Tape.reflect
  | _, _ => False

/-- **A command** takes a machine and its reflection to a machine and its reflection, with
replies that mirror each other. -/
theorem IsPrepared.perform_reflect (h : machine.IsPrepared table) (command : Command)
    (settings : Settings) :
    ((machine.reflect table).perform command settings).1.Mirrors
        (machine.perform command settings).1 ∧
      ((machine.reflect table).perform command settings).2 =
        (machine.perform command settings).2.reflect table := by
  cases command with
  | tick =>
      change (machine.reflect table).tick.1 = machine.tick.1 ∧
        (machine.reflect table).tick.2 = machine.tick.2.reflect table
      rw [h.tick_reflect]
      exact ⟨rfl, rfl⟩
  | run limit verbose =>
      change ((machine.reflect table).run limit verbose settings).result =
          (machine.run limit verbose settings).result.map Tape.reflect ∧
        ((machine.reflect table).run limit verbose settings).machine =
          (machine.run limit verbose settings).machine.reflect table
      have hsteps : (machine.reflect table).steps = machine.steps := rfl
      rw [run_eq, run_eq, hsteps]
      rcases allowed settings machine.steps limit with fault | ⟨limit, allowance⟩
      · exact ⟨rfl, rfl⟩
      · obtain ⟨hmachine, hresult⟩ := runWithin_eq limit verbose allowance machine []
        obtain ⟨hmachine', hresult'⟩ :=
          runWithin_eq limit verbose allowance (machine.reflect table) []
        rw [h.afterTicks_reflect] at hmachine' hresult'
        rw [(h.afterTicks allowance).verdict_reflect] at hresult'
        constructor
        · exact hresult'.trans (congrArg _ hresult.symm)
        · exact hmachine'.trans (congrArg _ hmachine.symm)

/-- A command leaves a prepared machine prepared. -/
theorem IsPrepared.perform (h : machine.IsPrepared table) (command : Command)
    (settings : Settings) : (machine.perform command settings).2.IsPrepared table := by
  obtain ⟨count, hcount⟩ := machine.exists_perform_eq command settings
  rw [hcount]
  exact h.afterTicks count

/-- A command leaves the cells of a prepared machine integers and truth values. -/
theorem IsPrepared.isIntegral_perform (h : machine.IsPrepared table)
    (hcells : machine.tape.IsIntegral) (command : Command) (settings : Settings) :
    (machine.perform command settings).2.tape.IsIntegral := by
  obtain ⟨count, hcount⟩ := machine.exists_perform_eq command settings
  rw [hcount]
  exact h.forall_mem_cells (fun bit => ⟨_, Datum.summand?_ofBit bit⟩) hcells count

/-- **Sessions go in step.** After each command the one machine is the reflection of the other and
the replies mirror each other; where the cells are integers or truth values to begin with, their
sums stay equal. -/
theorem IsPrepared.session_reflect (h : machine.IsPrepared table) (settings : Settings)
    (commands : List Command) :
    List.Forall₂
      (fun answer mirrored : Reply × Machine => mirrored.1.Mirrors answer.1 ∧
        mirrored.2 = answer.2.reflect table ∧
        (machine.tape.IsIntegral → mirrored.2.tape.ones = answer.2.tape.ones))
      (machine.session commands settings)
      ((machine.reflect table).session commands settings) := by
  induction commands generalizing machine with
  | nil => exact .nil
  | cons command rest ih =>
      obtain ⟨hreply, hmachine⟩ := h.perform_reflect command settings
      refine .cons ⟨hreply, hmachine, fun hcells => ?_⟩ ?_
      · rw [hmachine]
        exact Tape.ones_reflect (h.isIntegral_perform hcells command settings)
      · rw [hmachine]
        refine (ih (h.perform command settings)).imp fun answer mirrored hanswer => ?_
        obtain ⟨hfirst, hsecond, hones⟩ := hanswer
        exact ⟨hfirst, hsecond, fun hcells => hones (h.isIntegral_perform hcells command settings)⟩

/-- **Left and right are mirror images.** A table that passes its check, a tape and an integer for
a state make a machine. Any table that is checked to be the reflection, as the normal form of
the reflection is, makes the reflection of that machine with the reflected tape and the same
state. Under the same commands and settings the two go in step: after each command the second
machine is the reflection of the first one and its reply mirrors the reply of the first one, and if
the cells were integers at the start, those of both have the same sum. -/
theorem session_mirrors {raw : Datum} (h : Table.ofDatum raw = .ok table) (tape : Tape Datum)
    (state : ℤ) :
    Table.ofDatum table.reflect.toDatum = .ok table.reflect ∧
    ∃ machine, ofData raw tape.toDatum (.int state) = .ok machine ∧
      ∀ raw', Table.ofDatum raw' = .ok table.reflect →
        ofData raw' tape.reflect.toDatum (.int state) = .ok (machine.reflect table) ∧
        ∀ (settings : Settings) (commands : List Command),
          List.Forall₂
            (fun answer mirrored : Reply × Machine => mirrored.1.Mirrors answer.1 ∧
              mirrored.2 = answer.2.reflect table ∧
              (tape.IsIntegral → mirrored.2.tape.ones = answer.2.tape.ones))
            (machine.session commands settings)
            ((machine.reflect table).session commands settings) := by
  refine ⟨Table.ofDatum_reflect h, _, ofData_eq_start h tape (.int state), fun raw' h' => ?_⟩
  constructor
  · rw [ofData_eq_start h' tape.reflect (.int state), start_reflect]
  · exact (isPrepared_start table tape state).session_reflect

/-- The table of one state that writes a one and moves to the left, in words of its own. -/
def leftWalker : Datum :=
  .list [BusyBeaver.state (BusyBeaver.entry 1 "left" 0) (BusyBeaver.entry 1 " l" 0)]

/-- The walker to the left goes in step with the one to the right, also once both are stuck at a
cell that is no bit. -/
theorem leftWalker_mirrors :
    Table.ofDatum walker = .ok walkerTable ∧ Table.ofDatum leftWalker = .ok walkerTable.reflect ∧
    Tape.IsIntegral ⟨[.int 5], .bool true, [0, .int 2]⟩ ∧
    ∃ machine,
      ofData walker (.tape (.tuple [.int 5]) (.bool true) (.tuple [0, .int 2])) (.int 0) =
        .ok machine ∧
      ofData leftWalker (.tape (.tuple [.int 2, 0]) (.bool true) (.tuple [.int 5])) (.int 0) =
        .ok (machine.reflect walkerTable) ∧
      ∀ commands : List Command,
        List.Forall₂
          (fun answer mirrored : Reply × Machine => mirrored.1.Mirrors answer.1 ∧
            mirrored.2 = answer.2.reflect walkerTable ∧
            mirrored.2.tape.ones = answer.2.tape.ones)
          (machine.session commands) ((machine.reflect walkerTable).session commands) := by
  have hleft : Table.ofDatum leftWalker = .ok walkerTable.reflect := rfl
  have hcells : Tape.IsIntegral ⟨[.int 5], .bool true, [0, .int 2]⟩ := by
    intro cell hcell
    simp only [Tape.cells, List.reverse_singleton, List.singleton_append, List.mem_cons,
      List.not_mem_nil, or_false] at hcell
    rcases hcell with rfl | rfl | rfl | rfl
    · exact ⟨5, rfl⟩
    · exact ⟨1, rfl⟩
    · exact ⟨0, rfl⟩
    · exact ⟨2, rfl⟩
  obtain ⟨-, machine, hmachine, hmirror⟩ :=
    session_mirrors ofDatum_walker ⟨[.int 5], .bool true, [0, .int 2]⟩ 0
  obtain ⟨hreflect, hcommands⟩ := hmirror leftWalker hleft
  refine ⟨ofDatum_walker, hleft, hcells, machine, hmachine, hreflect, fun commands => ?_⟩
  exact (hcommands {} commands).imp fun answer mirrored hanswer =>
    ⟨hanswer.1, hanswer.2.1, hanswer.2.2 hcells⟩

end Machine

end Metered
