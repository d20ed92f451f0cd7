import Metered.Proofs.InfiniteTape
import Metered.Proofs.Ticks
import Metered.Turing.BusyBeaver

/-!
# The Infinite Tape Simulated

A machine on a recorded tape does what the machine of its table does on the infinite tape.
Seen from the head, the recorded tape is always the line of the infinite one
(`Machine.Follows`); a tick that crosses an edge of what is recorded finds the zero there
that the line has had all along.

## Main results

* `Machine.Follows.tick`: a tick follows a step;
* `Machine.iterate_tick_follows`: any number of ticks follows all the steps that there are
  within that number;
* `Machine.tick_simulates`: the simulation, from the data that describe the machine on.
-/

namespace Metered

/-- The configuration of the infinite tape at the start: the line of a recorded tape, with
the head at position zero. -/
def Configuration.ofTape (tape : Tape Bool) (state : Option ℕ) : Configuration where
  line := tape.line false
  head := 0
  state := state

namespace Machine

/-- **The simulation.** A machine with a table in normal form follows a configuration of the
infinite tape: both are in the same state, which is one of the table or the halt, the line
is the same from the head on both sides, and the moves add up to the position of the
head. -/
structure Follows (machine : Machine) (table : Table) (c : Configuration) : Prop where
  table_eq : machine.table = table.toDatum
  state_eq : machine.state = .int (stateNumber c.state)
  state_lt : ∀ s ∈ c.state, s < table.states.length
  line_eq : ∀ p : ℤ, machine.tape.line 0 p = .ofBit (c.line (c.head + p))
  moves_eq : (machine.rightMoves : ℤ) - machine.leftMoves = c.head

variable {machine : Machine} {table : Table} {c : Configuration}

/-- A machine has halted if the configuration has. -/
theorem Follows.halted_eq (h : machine.Follows table c) : machine.halted = c.state.isNone := by
  rw [halted, h.state_eq, isHalt_stateNumber]

/-- The cell under both heads. -/
theorem Follows.head_eq (h : machine.Follows table c) :
    machine.tape.head = .ofBit (c.line c.head) := by
  have hhead := h.line_eq 0
  rwa [Int.add_zero] at hhead

/-- A machine at its start follows the start on the infinite tape. -/
theorem follows_start {state : Option ℕ} (hstate : ∀ s ∈ state, s < table.states.length)
    (tape : Tape Bool) :
    (start table (tape.map .ofBit) (.int (stateNumber state))).Follows table
      (.ofTape tape state) where
  table_eq := rfl
  state_eq := rfl
  state_lt := hstate
  line_eq p := by
    have hline := Tape.line_map Datum.ofBit false tape p
    rw [Configuration.ofTape, Int.zero_add]
    exact hline
  moves_eq := rfl

/-- An instruction takes a machine and the configuration that it follows to such a pair
again. -/
theorem Follows.apply (h : machine.Follows table c) {instruction : Instruction}
    (hwithin : instruction.IsWithin table.states.length) :
    (machine.apply instruction.toTransition).Follows table (c.execute instruction) where
  table_eq := h.table_eq
  state_eq := rfl
  state_lt := hwithin
  line_eq p := by
    have htape : (machine.apply instruction.toTransition).tape =
        machine.tape.move instruction.move (.ofBit instruction.write) :=
      congrArg (machine.tape.move · (.ofBit instruction.write)) instruction.heading_toTransition
    rw [htape, Tape.line_move, c.line_execute]
    by_cases hp : p + instruction.move.delta = 0
    · rw [hp, Function.update_self, Function.update_self]
    · rw [Function.update_of_ne hp, Function.update_of_ne hp, h.line_eq]
  moves_eq := by
    have hmoves := h.moves_eq
    simp only [Machine.apply, Configuration.execute, instruction.heading_toTransition]
    cases instruction.move <;> simp [Direction.delta] <;> omega

/-- **A tick follows a step.** Where the configuration has not halted, it makes a step, and
a tick takes the machine to one that follows it, and says whether that has halted. -/
theorem Follows.tick (hclosed : table.IsClosed) (h : machine.Follows table c)
    (hrunning : c.state.isSome = true) :
    ∃ c', c.step? table = some c' ∧ machine.tick.1 = .ok c'.state.isSome ∧
      machine.tick.2.Follows table c' := by
  obtain ⟨s, hs⟩ := Option.isSome_iff_exists.mp hrunning
  have hlt : s < table.states.length := h.state_lt s hs
  have hlookup : Table.lookup machine.table machine.state machine.tape.head =
      .ok (table.states[s].instruction (c.line c.head)).toTransition := by
    rw [h.table_eq, h.state_eq, h.head_eq, hs]
    exact Table.lookup_toDatum hlt _
  have hnot : machine.halted = false := by
    rw [h.halted_eq, hs]
    rfl
  have htick := tick_of_lookup hnot hlookup
  refine ⟨_, Configuration.step?_of_state hs hlt, ?_, ?_⟩
  · rw [htick]
    change Except.ok (!isHalt (.int (stateNumber _))) = _
    rw [isHalt_stateNumber, Option.not_isNone]
    rfl
  · rw [htick]
    exact h.apply (hclosed _ (List.getElem_mem hlt) _)

/-- **Runs of ticks follow the infinite tape.** After any number of ticks a machine follows
what the configuration has become after all the steps that it makes within that number. -/
theorem iterate_tick_follows (hclosed : table.IsClosed) (h : machine.Follows table c) (k : ℕ) :
    ∃ c', c.steps? table (c.stepsWithin table k) = some c' ∧
      ((fun m => m.tick.2)^[k] machine).Follows table c' := by
  induction k with
  | zero =>
      refine ⟨c, ?_, h⟩
      rw [Nat.le_zero.mp (c.stepsWithin_le table 0)]
      rfl
  | succ k ih =>
      obtain ⟨last, hsteps, hlast⟩ := ih
      rw [Function.iterate_succ_apply']
      cases hstate : last.state with
      | none =>
          have hhalted : ((fun m => m.tick.2)^[k] machine).halted = true := by
            rw [hlast.halted_eq, hstate]
            rfl
          refine ⟨last, ?_, ?_⟩
          · rw [Configuration.stepsWithin_succ_of_halted hsteps hstate, hsteps]
          · rwa [tick_of_halted hhalted]
      | some s =>
          have hrunning : last.state.isSome = true := by rw [hstate]; rfl
          obtain ⟨next, hstep, -, hnext⟩ := hlast.tick hclosed hrunning
          exact ⟨next, Configuration.steps?_stepsWithin_succ hsteps hrunning hstep, hnext⟩

/-- **The simulation of the infinite tape.** A table that passes its check, a tape of bits
and a state make a machine. After any number of ticks it has the state and the line that the
machine on the infinite tape has after as many steps as it makes within that number, and its
moves add up to the position of the head. A tick says whether the machine is still running,
and from the halting time on it changes nothing. -/
theorem tick_simulates {raw : Datum} {table : Table} (h : Table.ofDatum raw = .ok table)
    (tape : Tape Bool) {state : Option ℕ} (hstate : ∀ s ∈ state, s < table.states.length) :
    ∃ machine,
      ofData raw (tape.map .ofBit).toDatum (.int (stateNumber state)) = .ok machine ∧
      ∀ k : ℕ,
        let initial := Configuration.ofTape tape state
        let time := initial.haltingTime table
        let now := (fun m : Machine => m.tick.2)^[k] machine
        ∃ c, initial.steps? table (min (k : ℕ∞) time).toNat = some c ∧
          now.state = .int (stateNumber c.state) ∧
          (∀ p : ℤ, now.tape.line 0 p = .ofBit (c.line (c.head + p))) ∧
          (now.rightMoves : ℤ) - now.leftMoves = c.head ∧
          now.tick.1 = .ok (decide ((k + 1 : ℕ) < time)) ∧
          (time ≤ k → now.tick = (.ok false, now)) := by
  refine ⟨_, ofData_eq_start h _ _, fun k => ?_⟩
  intro initial time now
  have hclosed := Table.isClosed_of_ofDatum h
  obtain ⟨c, hsteps, hnow⟩ := iterate_tick_follows hclosed (follows_start hstate tape) k
  have hrunning : c.state.isSome = true ↔ k < time := Configuration.isSome_state_iff hsteps
  have hleft : time ≤ k → now.tick = (.ok false, now) := by
    intro htime
    have hhalt : ¬ c.state.isSome = true := fun hc => absurd (hrunning.mp hc) (not_lt.mpr htime)
    apply tick_of_halted
    rw [hnow.halted_eq, Option.isNone_iff_eq_none]
    exact Option.not_isSome_iff_eq_none.mp hhalt
  refine ⟨c, hsteps, hnow.state_eq, hnow.line_eq, hnow.moves_eq, ?_, hleft⟩
  rcases lt_or_ge (k : ℕ∞) time with hlt | htime
  · obtain ⟨next, hstep, htick, -⟩ := hnow.tick hclosed (hrunning.mpr hlt)
    have hnext := Configuration.steps?_stepsWithin_succ hsteps (hrunning.mpr hlt) hstep
    have hanswer : next.state.isSome = decide ((k + 1 : ℕ) < time) := by
      rw [Bool.eq_iff_iff, decide_eq_true_iff]
      exact Configuration.isSome_state_iff hnext
    rw [← hanswer]
    exact htick
  · have hlate : ¬ (k + 1 : ℕ) < time :=
      not_lt.mpr (htime.trans (Nat.cast_le.mpr k.le_succ))
    rw [hleft htime, decide_eq_false hlate]

end Machine

namespace BusyBeaver

/-- The checked table of the champion of three states. -/
def threeStatesTable : Table where
  states := [
    ⟨⟨true, .right, some 1⟩, ⟨true, .right, none⟩⟩,
    ⟨⟨false, .right, some 2⟩, ⟨true, .right, some 1⟩⟩,
    ⟨⟨true, .left, some 2⟩, ⟨true, .left, some 0⟩⟩]

/-- The champion of three states crosses both edges of the blank tape, and comes back to what
it wrote there. -/
theorem threeStates_simulates :
    Table.ofDatum threeStates.table = .ok threeStatesTable ∧
    ∃ machine,
      Machine.ofData threeStates.table ((Tape.mk [] false []).map .ofBit).toDatum (.int 0) =
        .ok machine ∧
      ∀ k : ℕ,
        let initial := Configuration.ofTape ⟨[], false, []⟩ (some 0)
        let time := initial.haltingTime threeStatesTable
        let now := (fun m : Machine => m.tick.2)^[k] machine
        ∃ c, initial.steps? threeStatesTable (min (k : ℕ∞) time).toNat = some c ∧
          now.state = .int (stateNumber c.state) ∧
          (∀ p : ℤ, now.tape.line 0 p = .ofBit (c.line (c.head + p))) ∧
          (now.rightMoves : ℤ) - now.leftMoves = c.head ∧
          now.tick.1 = .ok (decide ((k + 1 : ℕ) < time)) ∧
          (time ≤ k → now.tick = (.ok false, now)) := by
  have hchecked : Table.ofDatum threeStates.table = .ok threeStatesTable := rfl
  have hstate : ∀ s ∈ some 0, s < threeStatesTable.states.length := by decide
  exact ⟨hchecked, Machine.tick_simulates hchecked ⟨[], false, []⟩ hstate⟩

end BusyBeaver

end Metered
