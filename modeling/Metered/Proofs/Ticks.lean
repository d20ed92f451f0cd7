import Metered.Proofs.NormalTable
import Metered.Turing.Machine

/-!
# Machines in Steps

The start of a machine whose table is checked, and what a tick does to a machine. A tick
either finds the machine halted and leaves it as it is, or makes the transition that the
look-up of the state and the cell under the head yields.

## Main results

* `Machine.ofData_eq_start`: a checked table and two tuples around a head make a machine;
* `Machine.tick_of_halted`, `Machine.tick_of_lookup`: the two ways a tick succeeds.
-/

namespace Metered

/-! ### Tapes as data -/

/-- The tape of the datum of a tape. -/
theorem Tape.ofDatum?_toDatum (tape : Tape Datum) : ofDatum? tape.toDatum = some tape := by
  rw [toDatum, ofDatum?, List.reverse_reverse]

/-- The cells of a tape with two tuples around its head can be joined. -/
theorem AnyTape.joined_toDatum (tape : Tape Datum) :
    (AnyTape.ofDatum tape.toDatum).joined = .ok tape := by
  rw [AnyTape.ofDatum, Tape.ofDatum?_toDatum, joined, AnyTape.toDatum, Tape.ofDatum?_toDatum]

/-- A move in the direction of an instruction. -/
theorem Instruction.heading_toTransition (instruction : Instruction) :
    instruction.toTransition.heading = instruction.move := by
  obtain ⟨write, move, next⟩ := instruction
  cases move <;> rfl

namespace Machine

/-! ### The start of a machine -/

/-- The machine of a checked table at its start. -/
def start (table : Table) (tape : Tape Datum) (state : Datum) : Machine where
  table := table.toDatum
  tape := tape
  state := state
  extent := tape.width

/-- **The start of a machine.** A table that passes its check and a tape with two tuples
around its head make a machine. -/
theorem ofData_eq_start {raw : Datum} {table : Table} (h : Table.ofDatum raw = .ok table)
    (tape : Tape Datum) (state : Datum) :
    ofData raw tape.toDatum state = .ok (start table tape state) := by
  rw [ofData, ofTable, h, AnyTape.joined_toDatum]
  rfl

/-! ### Ticks -/

/-- A tick leaves a machine that has halted as it is. -/
theorem tick_of_halted {machine : Machine} (h : machine.halted = true) :
    machine.tick = (.ok false, machine) := by
  rw [tick, if_pos h]

/-- A tick makes the transition that the look-up yields. -/
theorem tick_of_lookup {machine : Machine} {entry : Transition} (h : machine.halted = false)
    (hentry : Table.lookup machine.table machine.state machine.tape.head = .ok entry) :
    machine.tick = (.ok !isHalt entry.next, machine.apply entry) := by
  have hadvance : machine.advance = .ok (machine.apply entry) := by
    rw [advance, hentry]
    rfl
  rw [tick, if_neg (Bool.eq_false_iff.mp h), hadvance]
  rfl

end Machine

end Metered
