import Metered.Proofs.TapeReader
import Metered.Proofs.Window

/-!
# Traces of Runs

A run can be told to write a line for each of its transitions. Its trace is complete: there is one
line for each machine that the run comes to, in their order, whatever the run ends with. A run that
goes on where another one stopped goes on with its trace. Nothing but the trace depends on whether
it is written.

Where the cells and the state are integers, a line shows all that changes in a machine but its
counters of moves, and it can be read back.

## Main results

* `passed_add`: what several ticks pass through can be split;
* `log_run`: a run writes a line for each machine that it passes through;
* `session_silent`: a session without its traces;
* `readTrace?_printed`: what has been printed is read back;
* `trace_is_faithful`: traces of a machine of a checked table on a tape of integers.
-/

namespace Metered

/-- A move on a tape whose cells are replaced, where zeros stay zeros, is the same move. -/
theorem Tape.map_move {α β : Type} [Zero α] [Zero β] {f : α → β} (h : f 0 = 0) (tape : Tape α)
    (direction : Direction) (cell : α) :
    (tape.move direction cell).map f = (tape.map f).move direction (f cell) := by
  obtain ⟨left, head, right⟩ := tape
  cases direction with
  | left => cases left <;> simp [map, move, moveLeft, Sequence.unconsD, h]
  | right => cases right <;> simp [map, move, moveRight, Sequence.unconsD, h]

namespace Machine

variable {machine : Machine} {table : Table}

/-! ### Passing through -/

/-- A machine is at rest or makes a transition. -/
theorem isAtRest_or_advance (machine : Machine) :
    machine.IsAtRest ∨ machine.halted = false ∧ ∃ next, machine.advance = .ok next := by
  cases hhalted : machine.halted with
  | true => exact .inl (.inl hhalted)
  | false =>
      cases hadvance : machine.advance with
      | error fault => exact .inl (.inr ⟨fault, hadvance⟩)
      | ok next => exact .inr ⟨rfl, next, rfl⟩

/-- Ticks do not undo transitions. -/
theorem steps_le_afterTicks (machine : Machine) (count : ℕ) :
    machine.steps ≤ (machine.afterTicks count).steps := by
  obtain ⟨made, heq, hsteps, -⟩ := afterTicks_cases machine count
  rw [heq, hsteps]
  exact Nat.le_add_right _ _

/-- The machines that a number of ticks pass through, one after each transition. -/
def passed (machine : Machine) (count : ℕ) : List Machine :=
  (List.range ((machine.afterTicks count).steps - machine.steps)).map fun i =>
    machine.afterTicks (i + 1)

@[simp] theorem passed_zero (machine : Machine) : machine.passed 0 = [] := by simp [passed]

/-- Ticks pass a machine at rest through nothing. -/
theorem IsAtRest.passed_eq (h : machine.IsAtRest) (count : ℕ) : machine.passed count = [] := by
  simp [passed, h.afterTicks_eq]

/-- Ticks pass a machine through where its transition leads, and then through what they pass that
machine through. -/
theorem passed_succ {next : Machine} (hrunning : machine.halted = false)
    (hnext : machine.advance = .ok next) (count : ℕ) :
    machine.passed (count + 1) = next :: next.passed count := by
  have htick : machine.tick.2 = next := tick_of_advance hrunning hnext
  have hmade : (next.afterTicks count).steps - machine.steps =
      (next.afterTicks count).steps - next.steps + 1 := by
    have hle := next.steps_le_afterTicks count
    have hsteps := steps_of_advance hnext
    omega
  simp only [passed, afterTicks_succ, htick, hmade, List.range_succ_eq_map, List.map_cons,
    List.map_map, afterTicks_zero]
  rfl

/-- **What several ticks pass through can be split.** -/
theorem passed_add (machine : Machine) (first second : ℕ) :
    machine.passed (first + second) =
      machine.passed first ++ (machine.afterTicks first).passed second := by
  induction first generalizing machine with
  | zero => simp
  | succ first ih =>
      rcases machine.isAtRest_or_advance with hrest | ⟨hrunning, next, hnext⟩
      · simp [hrest.afterTicks_eq, hrest.passed_eq]
      · rw [Nat.add_right_comm, passed_succ hrunning hnext, passed_succ hrunning hnext,
          afterTicks_succ, tick_of_advance hrunning hnext, ih, List.cons_append]

/-! ### Traces -/

/-- **A run within an allowance writes a line** for each machine that it passes through. -/
theorem log_runWithin (limit : Number) (verbose : Bool) (allowance : ℕ) (machine : Machine)
    (log : List String) :
    (runWithin limit verbose allowance machine log).log =
      log.reverse ++ if verbose then (machine.passed allowance).map traceLine else [] := by
  induction allowance generalizing machine log with
  | zero =>
      rw [runWithin]
      split_ifs <;> simp
  | succ allowance ih =>
      rw [runWithin]
      rcases machine.isAtRest_or_advance with hrest | ⟨hrunning, next, hnext⟩
      -- the run ends here and writes nothing, whether it has halted or the transition fails
      · rw [hrest.passed_eq]
        rcases hrest with hhalted | ⟨fault, hfault⟩
        · simp [hhalted]
        · rw [hfault]
          split_ifs <;> simp
      · rw [hrunning, hnext, passed_succ hrunning hnext]
        cases verbose <;> simp [ih]

/-- **A run writes a line** for each machine that it passes through. -/
theorem log_run (machine : Machine) (limit : ℤ) (verbose : Bool) :
    (machine.run (.int limit) verbose).log =
      if verbose then (machine.passed limit.toNat).map traceLine else [] := by
  rw [run_eq_runWithin, log_runWithin]
  rfl

/-- What a run prints: its lines, each of them ended. -/
def Outcome.printed (outcome : Outcome) : String :=
  String.join (outcome.log.map (· ++ "\n"))

/-- **Traces can be split** like allowances. -/
theorem log_run_run (machine : Machine) (m n : ℕ) :
    (machine.run (.int (m + n : ℕ)) true).log = (machine.run (.int m) true).log ++
      ((machine.run (.int m) true).machine.run (.int n) true).log := by
  rw [log_run, log_run, log_run, (run_int machine m true).1, if_pos rfl, if_pos rfl, if_pos rfl,
    Int.toNat_natCast, Int.toNat_natCast, Int.toNat_natCast, passed_add, List.map_append]

/-! ### Sessions without traces -/

/-- A command without its trace. -/
def Command.silent : Command → Command
  | tick => tick
  | run limit _ => run limit false

/-- A reply without its trace. -/
def Reply.silent : Reply → Reply
  | ticked result => ticked result
  | ran result _ => ran result []

/-- A run without its trace has the same result and leaves the same machine. -/
theorem run_silent (machine : Machine) (limit : Datum) (verbose : Bool) (settings : Settings) :
    let silent := machine.run limit false settings
    let outcome := machine.run limit verbose settings
    silent.result = outcome.result ∧ silent.machine = outcome.machine ∧ silent.log = [] := by
  intro silent outcome
  have hsilent : silent = _ := machine.run_eq limit false settings
  have houtcome : outcome = _ := machine.run_eq limit verbose settings
  rw [hsilent, houtcome]
  rcases allowed settings machine.steps limit with fault | ⟨limit, allowance⟩
  · exact ⟨rfl, rfl, rfl⟩
  · obtain ⟨hmachine, hresult⟩ := runWithin_eq limit verbose allowance machine []
    obtain ⟨hmachine', hresult'⟩ := runWithin_eq limit false allowance machine []
    exact ⟨hresult'.trans hresult.symm, hmachine'.trans hmachine.symm,
      log_runWithin limit false allowance machine []⟩

/-- A command without its trace has the same reply but for its trace, and leaves the same
machine. -/
theorem perform_silent (machine : Machine) (command : Command) (settings : Settings) :
    machine.perform command.silent settings =
      ((machine.perform command settings).1.silent, (machine.perform command settings).2) := by
  cases command with
  | tick => rfl
  | run limit verbose =>
      obtain ⟨hresult, hmachine, hlog⟩ := run_silent machine limit verbose settings
      simp only [Command.silent, perform, Reply.silent, hresult, hmachine, hlog]

/-- **A session without its traces** has the same replies, and leaves the same machine after each
of them. -/
theorem session_silent (machine : Machine) (settings : Settings) (commands : List Command) :
    machine.session (commands.map Command.silent) settings =
      (machine.session commands settings).map fun (reply, next) => (reply.silent, next) := by
  induction commands generalizing machine with
  | nil => rfl
  | cons command rest ih =>
      rw [List.map_cons, session, perform_silent, ih, session, List.map_cons]

/-! ### Snapshots -/

/-- What a line of a trace shows of a machine whose cells and state are integers. -/
structure Snapshot where
  steps : ℕ
  tape : Tape ℤ
  state : ℤ
  deriving DecidableEq

namespace Snapshot

/-- The machine is as the snapshot says. -/
structure Shows (shot : Snapshot) (machine : Machine) : Prop where
  steps_eq : machine.steps = shot.steps
  tape_eq : machine.tape = shot.tape.map .int
  state_eq : machine.state = .int shot.state

/-- A snapshot as a line: the number of transitions, which is set to the right in five columns, then
the tape and the state. -/
def line (shot : Snapshot) : String :=
  "step " ++ String.ofList ((Nat.toDigits 10 shot.steps).leftpad 5 ' ') ++ "  " ++
    (shot.tape.map .int).text (.int shot.state) false

/-- The line of a machine is that of its snapshot. -/
theorem Shows.traceLine_eq {shot : Snapshot} (h : shot.Shows machine) :
    machine.traceLine = shot.line := by
  rw [traceLine, h.steps_eq, h.tape_eq, h.state_eq]
  rfl

/-- The snapshot that a line shows. -/
def read? : List Char → Option Snapshot
  | 's' :: 't' :: 'e' :: 'p' :: ' ' :: line => do
    let columns := line.dropWhile (· == ' ')
    let steps ← Text.natural? (columns.takeWhile Char.isDigit)
    let (tape, state) ← Tape.read? (String.ofList ((columns.dropWhile Char.isDigit).drop 2))
    pure ⟨steps, tape, ← state⟩
  | _ => none

/-- **A line is read back.** -/
theorem read?_line (shot : Snapshot) : read? shot.line.toList = some shot := by
  obtain ⟨steps, tape, state⟩ := shot
  have hchars : (line ⟨steps, tape, state⟩).toList = 's' :: 't' :: 'e' :: 'p' :: ' ' ::
      (List.replicate (5 - (Nat.toDigits 10 steps).length) ' ' ++ (Nat.toDigits 10 steps ++
        ' ' :: ' ' :: (tape.ofIntegers.text (.int state) false).toList)) := by
    simp [line, List.leftpad]
  have hdigit : ∀ c ∈ Nat.toDigits 10 steps, c.isDigit = true :=
    fun c hc => Text.isDigit_of_mem_toDigits hc
  -- no digit is a blank, so that only the padding is dropped
  have hblank : ∀ rest, (Nat.toDigits 10 steps ++ rest).dropWhile (· == ' ') =
      Nat.toDigits 10 steps ++ rest := by
    intro rest
    cases hfirst : Nat.toDigits 10 steps with
    | nil => cases Nat.toDigits_ne_nil hfirst
    | cons first others =>
        have hne : first ≠ ' ' := by
          rintro rfl
          cases hdigit ' ' (by simp [hfirst])
        simp [hne]
  rw [hchars, read?, List.dropWhile_append_of_pos (by simp), hblank,
    List.takeWhile_append_of_pos hdigit, List.dropWhile_append_of_pos hdigit]
  have htext : Tape.read? (tape.ofIntegers.text (.int state) false) = some (tape, some state) :=
    Tape.read?_text tape (some state)
  simp [Text.natural?_toDigits, htext]

/-- No line ends before its end. -/
theorem newline_notMem_line (shot : Snapshot) : '\n' ∉ shot.line.toList := by
  obtain ⟨steps, tape, state⟩ := shot
  have hdigits : '\n' ∉ Nat.toDigits 10 steps := by
    intro hmem
    cases Text.isDigit_of_mem_toDigits hmem
  have hlabel : '\n' ∉ Tape.stateLabel (.int state) :=
    Tape.notMem_stateLabel rfl (by decide) (some state)
  have hparts : '\n' ∉ [' '].intercalate (Tape.parts false (.int state) tape.ofIntegers) :=
    Tape.notMem_intercalate_parts rfl (by decide) tape (.int state)
  simp [line, List.leftpad, Tape.text, hdigits, hlabel, hparts]

end Snapshot

/-! ### Reading traces -/

/-- The snapshots that a printed trace shows. -/
def readTrace? (text : String) : Option (List Snapshot) :=
  (text.toList.splitOn '\n').dropLast.mapM Snapshot.read?

/-- Lines that have been ended are told apart. -/
theorem splitOn_flatMap_ended {lines : List (List Char)} (h : ∀ line ∈ lines, '\n' ∉ line) :
    (lines.flatMap (· ++ ['\n'])).splitOn '\n' = lines ++ [[]] := by
  induction lines with
  | nil => rfl
  | cons line lines ih =>
      have hline : '\n' ∉ line := h line List.mem_cons_self
      have hlines := ih fun other hother => h other (List.mem_cons_of_mem _ hother)
      rw [List.flatMap_cons, List.append_assoc, List.singleton_append,
        List.splitOn_append_cons_self_of_not_mem hline, hlines, List.cons_append]

/-- **What has been printed is read back.** -/
theorem readTrace?_printed {outcome : Outcome} {shots : List Snapshot}
    (hlog : outcome.log = shots.map Snapshot.line) : readTrace? outcome.printed = some shots := by
  have hchars : outcome.printed.toList =
      (shots.map fun shot => shot.line.toList).flatMap (· ++ ['\n']) := by
    simp [Outcome.printed, hlog, List.flatMap_map]
  have hlines : ∀ line ∈ shots.map fun shot => shot.line.toList, '\n' ∉ line := by
    simpa using fun shot _ => Snapshot.newline_notMem_line shot
  rw [readTrace?, hchars, splitOn_flatMap_ended hlines, List.dropLast_concat]
  exact Text.mapM_map_eq_some Snapshot.read?_line shots

/-! ### Machines on tapes of integers -/

/-- Ticks leave a prepared machine on a tape of integers with something to show. -/
theorem IsPrepared.exists_shows (h : machine.IsPrepared table) {tape : Tape ℤ}
    (htape : machine.tape = tape.map .int) (count : ℕ) :
    ∃ shot : Snapshot, shot.Shows (machine.afterTicks count) := by
  obtain ⟨state, hstate⟩ := (h.afterTicks count).state_eq
  obtain ⟨last, hlast⟩ : ∃ last : Tape ℤ, (machine.afterTicks count).tape = last.map .int := by
    refine h.afterTicks_induction (P := fun m => ∃ last : Tape ℤ, m.tape = last.map .int)
      ⟨tape, htape⟩ ?_ count
    rintro m instruction ⟨last, hlast⟩
    refine ⟨last.move instruction.toTransition.heading (if instruction.write then 1 else 0), ?_⟩
    rw [Tape.map_move rfl, ← hlast]
    rfl
  exact ⟨⟨_, last, state⟩, rfl, hlast, hstate⟩

/-- **Traces are complete and can be read back.** Let a table pass its check, and let a machine of
it start on a tape of integers in a state that is an integer. A session has the same replies without
its traces, and leaves the same machines, whatever the settings are. After any calls, a run with a
trace writes a line for each transition that it makes, whatever it ends with. The line shows the
number of transitions so far, the tape and the state after this one, and these are read back from
what is printed. What is printed by two runs in turn is what a single run with both limits prints.
-/
theorem trace_is_faithful {raw : Datum} (h : Table.ofDatum raw = .ok table) (tape : Tape ℤ)
    (state : ℤ) :
    ∃ machine, ofData raw (tape.map .int).toDatum (.int state) = .ok machine ∧
      (∀ (settings : Settings) (commands : List Command),
        machine.session (commands.map Command.silent) settings =
          (machine.session commands settings).map fun (reply, next) => (reply.silent, next)) ∧
      ∀ (settings : Settings) (calls : List Call),
        let now := machine.after (calls.map Call.command) settings
        ∃ shot : ℕ → Snapshot,
          (∀ i, (shot i).Shows (now.afterTicks (i + 1))) ∧
          (∀ limit : Option ℤ,
            let outcome := now.run (limit.elim .null .int) true settings
            ∃ made, outcome.machine = now.afterTicks made ∧
              outcome.machine.steps = now.steps + made ∧
              (∀ i < made, (shot i).steps = now.steps + (i + 1)) ∧
              outcome.log = ((List.range made).map fun i => (shot i).line) ∧
              readTrace? outcome.printed = some ((List.range made).map shot)) ∧
          ∀ m n : ℕ,
            let first := now.run (.int m) true
            let second := first.machine.run (.int n) true
            let single := now.run (.int (m + n : ℕ)) true
            first.printed ++ second.printed = single.printed := by
  refine ⟨_, ofData_eq_start h _ _, session_silent _, fun settings calls => ?_⟩
  intro now
  have hnow : now = (start table (tape.map .int) (.int state)).afterTicks
      (calls.map (Call.allowance settings)).sum := after_calls _ calls settings
  have hshows (i : ℕ) : ∃ shot : Snapshot, shot.Shows (now.afterTicks (i + 1)) := by
    rw [hnow, ← afterTicks_add]
    exact (isPrepared_start table _ state).exists_shows rfl _
  choose shot hshot using hshows
  refine ⟨shot, hshot, fun limit => ?_, fun m n => ?_⟩
  · intro outcome
    obtain ⟨made, heq, hsteps, -⟩ :=
      afterTicks_cases now (limit.getD settings.transitions).toNat
    have hrun : outcome = now.run (.int (limit.getD settings.transitions)) true :=
      now.run_elim limit true settings
    have hmachine : outcome.machine = now.afterTicks made := by
      rw [hrun, (run_int now _ true).1, heq]
    have hlog : outcome.log = ((List.range made).map shot).map Snapshot.line := by
      rw [hrun, log_run, if_pos rfl, passed, heq, hsteps, Nat.add_sub_cancel_left, List.map_map,
        List.map_map]
      exact List.map_congr_left fun i _ => (hshot i).traceLine_eq
    refine ⟨made, hmachine, by rw [hmachine, hsteps], fun i hi => ?_, ?_,
      readTrace?_printed hlog⟩
    · rw [← (hshot i).steps_eq]
      exact steps_afterTicks_of_le hsteps hi
    · rw [hlog, List.map_map]
      rfl
  · intro first second single
    have hlog : single.log = first.log ++ second.log := now.log_run_run m n
    rw [Outcome.printed, Outcome.printed, Outcome.printed, hlog, List.map_append,
      String.join_append]

example : ((start walkerTable ⟨[.int (-12)], 0, [0, .int 2]⟩ 0).run (.int 5) true).printed =
    "step     1  q0: -12 1 [0] 2\nstep     2  q0: -12 1 1 [2]\n" := rfl

/-- The walker is stuck after its second transition, for which it still writes a line. -/
theorem walker_trace :
    Table.ofDatum walker = .ok walkerTable ∧
    ∃ machine, ofData walker ((Tape.mk [-12] 0 [0, 2] : Tape ℤ).map .int).toDatum (.int 0) =
        .ok machine ∧
      let now := machine.after [.tick]
      let outcome := now.run (.int 5) true
      ∃ shot : Snapshot, shot.Shows (now.afterTicks 1) ∧ shot.steps = 2 ∧
        outcome.log = [shot.line] ∧ readTrace? outcome.printed = some [shot] := by
  obtain ⟨machine, hmachine, -, hcalls⟩ := trace_is_faithful ofDatum_walker ⟨[-12], 0, [0, 2]⟩ 0
  obtain ⟨shot, hshot, hruns, -⟩ := hcalls {} [.tick]
  obtain ⟨made, -, hsteps, hcounts, hlog, hread⟩ := hruns (some 5)
  have hstart := (ofData_eq_start ofDatum_walker _ _).symm.trans hmachine
  obtain rfl := Except.ok.inj hstart
  have hmade : made = 1 := by
    change 2 = 1 + made at hsteps
    omega
  subst hmade
  exact ⟨ofDatum_walker, _, hmachine, shot 0, hshot 0, hcounts 0 Nat.one_pos, hlog, hread⟩

end Machine

end Metered
