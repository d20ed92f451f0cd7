import Mathlib.Data.ENat.Lattice
import Mathlib.Data.List.GetD
import Mathlib.Logic.Function.Basic
import Metered.Proofs.NormalTable

/-!
# Machines on an Infinite Tape

The machine that a checked table describes, on a tape of bits that is infinite both ways:
a line of cells, a head at a position of the line, and a state. Each step writes the cell
under the head and moves the head by one position. A machine without a state has halted and
makes no more steps; its halting time is infinite if it never gets there.

`Tape.line` reads a recorded tape as a line, from its head.

## Main results

* `Tape.line_move`: **moves** — what is written stays where it was written, and the rest of
  the line is only seen from one position further;
* `Configuration.isSome_state_iff`: a machine that has made all the steps it can make within
  some number of them is still running exactly if its halting time is later.
-/

namespace Metered

/-- The change of position that a move makes. -/
def Direction.delta : Direction → ℤ
  | left => -1
  | right => 1

/-! ### Recorded tapes as lines -/

namespace Tape

variable {α β : Type}

/-- The line of a recorded tape as seen from its head, with a blank wherever nothing is
recorded. -/
def line (blank : α) (tape : Tape α) : ℤ → α
  | .ofNat 0 => tape.head
  | .ofNat (j + 1) => tape.right.getD j blank
  | .negSucc j => tape.left.getD j blank

/-- Replacing every cell replaces every cell of the line. -/
theorem line_map (f : α → β) (blank : α) (tape : Tape α) (p : ℤ) :
    (tape.map f).line (f blank) p = f (tape.line blank p) := by
  match p with
  | .ofNat 0 => rfl
  | .ofNat (j + 1) => exact List.getD_map _ _ f
  | .negSucc j => exact List.getD_map _ _ f

/-- **Moves.** After a move the line holds the cell written where the head was, is otherwise
as before, and is seen from one position further. -/
theorem line_move [Zero α] (tape : Tape α) (direction : Direction) (cell : α) (p : ℤ) :
    (tape.move direction cell).line 0 p =
      Function.update (tape.line 0) 0 cell (p + direction.delta) := by
  obtain ⟨left, head, right⟩ := tape
  cases direction with
  | left =>
      match p with
      | .ofNat 0 => cases left <;> rfl
      | .ofNat 1 => rfl
      | .ofNat (j + 2) =>
          have hp : Int.ofNat (j + 2) + -1 = Int.ofNat (j + 1) := by
            change ((j + 2 : ℕ) : ℤ) + -1 = (j + 1 : ℕ)
            omega
          rw [Direction.delta, hp]
          rfl
      | .negSucc j => cases left <;> rfl
  | right =>
      match p with
      | .ofNat 0 => cases right <;> rfl
      | .ofNat (j + 1) => cases right <;> rfl
      | .negSucc 0 => rfl
      | .negSucc (j + 1) => rfl

end Tape

/-! ### The machine of a table -/

/-- A machine on an infinite tape; one without a state has halted. -/
structure Configuration where
  line : ℤ → Bool
  head : ℤ
  state : Option ℕ

namespace Configuration

/-- The configuration after an instruction. -/
def execute (c : Configuration) (instruction : Instruction) : Configuration where
  line := Function.update c.line c.head instruction.write
  head := c.head + instruction.move.delta
  state := instruction.next

/-- One step of the machine of a table, which a machine that has halted does not make. -/
def step? (table : Table) (c : Configuration) : Option Configuration :=
  c.state.bind fun s => table.states[s]?.map fun state =>
    c.execute (state.instruction (c.line c.head))

/-- A number of steps, if the machine makes so many. -/
def steps? (table : Table) : ℕ → Configuration → Option Configuration
  | 0, c => some c
  | n + 1, c => (steps? table n c).bind (step? table)

/-- A machine halts at a time if it has made so many steps and has no state after them. -/
def HaltsAt (table : Table) (c : Configuration) (time : ℕ) : Prop :=
  ∃ last, c.steps? table time = some last ∧ last.state = none

/-- The halting time of a machine, infinite if it never halts. -/
noncomputable def haltingTime (table : Table) (c : Configuration) : ℕ∞ :=
  ⨅ (time : ℕ) (_ : c.HaltsAt table time), (time : ℕ∞)

variable {table : Table} {c : Configuration}

/-- The line after an instruction, as seen from the head before and after it. -/
theorem line_execute (c : Configuration) (instruction : Instruction) (p : ℤ) :
    (c.execute instruction).line ((c.execute instruction).head + p) =
      Function.update (fun q => c.line (c.head + q)) 0 instruction.write
        (p + instruction.move.delta) := by
  simp only [execute]
  by_cases hp : p + instruction.move.delta = 0
  · have hhead : c.head + instruction.move.delta + p = c.head := by omega
    rw [hp, hhead, Function.update_self, Function.update_self]
  · have hcell : c.head + instruction.move.delta + p =
        c.head + (p + instruction.move.delta) := by omega
    rw [hcell, Function.update_of_ne hp, Function.update_of_ne (by omega)]

/-- A machine that has halted makes no step. -/
theorem step?_of_halted (table : Table) (h : c.state = none) : c.step? table = none := by
  rw [step?, h]
  rfl

/-- A machine in a state of its table makes a step. -/
theorem step?_of_state {s : ℕ} (h : c.state = some s) (hs : s < table.states.length) :
    c.step? table = some (c.execute (table.states[s].instruction (c.line c.head))) := by
  rw [step?, h, Option.bind_some, List.getElem?_eq_getElem hs, Option.map_some]

/-- A machine makes no step after it has halted. -/
theorem steps?_of_haltsAt {time n : ℕ} (h : c.HaltsAt table time) (hlt : time < n) :
    c.steps? table n = none := by
  obtain ⟨last, hlast, hhalt⟩ := h
  induction n, hlt using Nat.le_induction with
  | base => rw [steps?, hlast, Option.bind_some, step?_of_halted table hhalt]
  | succ n _ ih => rw [steps?, ih, Option.bind_none]

/-- The halting time of a machine that halts. -/
theorem haltingTime_of_haltsAt {time : ℕ} (h : c.HaltsAt table time) :
    c.haltingTime table = time := by
  apply le_antisymm
  · exact iInf₂_le time h
  · refine le_iInf₂ fun other hother => ?_
    rw [Nat.cast_le]
    by_contra hlt
    obtain ⟨last, hlast, -⟩ := h
    rw [steps?_of_haltsAt hother (not_le.mp hlt)] at hlast
    cases hlast

/-- A finite halting time is a time at which the machine halts. -/
theorem haltsAt_of_haltingTime_le {n : ℕ} (h : c.haltingTime table ≤ n) :
    ∃ time ≤ n, c.HaltsAt table time := by
  by_contra hnone
  have hlate : ((n + 1 : ℕ) : ℕ∞) ≤ c.haltingTime table := by
    refine le_iInf₂ fun time htime => ?_
    rw [Nat.cast_le]
    by_contra hlt
    exact hnone ⟨time, by omega, htime⟩
  have hle := hlate.trans h
  rw [Nat.cast_le] at hle
  omega

/-- The number of steps that a machine makes within a number of them. -/
noncomputable def stepsWithin (table : Table) (c : Configuration) (n : ℕ) : ℕ :=
  (min (n : ℕ∞) (c.haltingTime table)).toNat

/-- Up to its halting time a machine makes every step. -/
theorem stepsWithin_of_le {n : ℕ} (h : n ≤ c.haltingTime table) : c.stepsWithin table n = n := by
  rw [stepsWithin, min_eq_left h, ENat.toNat_natCast]

/-- A machine makes no more steps than it may. -/
theorem stepsWithin_le (table : Table) (c : Configuration) (n : ℕ) :
    c.stepsWithin table n ≤ n :=
  ENat.toNat_le_of_le_natCast (min_le_left _ _)

/-- A machine that has halted makes no more steps than it took to halt. -/
theorem stepsWithin_of_haltsAt {time n : ℕ} (h : c.HaltsAt table time) (hle : time ≤ n) :
    c.stepsWithin table n = time := by
  rw [stepsWithin, haltingTime_of_haltsAt h, min_eq_right (Nat.cast_le.mpr hle),
    ENat.toNat_natCast]

/-- A machine that has made all the steps it can make within some number of them is still
running exactly if its halting time is later. -/
theorem isSome_state_iff {n : ℕ} {last : Configuration}
    (h : c.steps? table (c.stepsWithin table n) = some last) :
    last.state.isSome = true ↔ n < c.haltingTime table := by
  constructor
  · intro hrunning
    by_contra hlt
    obtain ⟨time, hle, htime⟩ := haltsAt_of_haltingTime_le (not_lt.mp hlt)
    obtain ⟨halted, hsteps, hhalt⟩ := htime
    rw [stepsWithin_of_haltsAt ⟨halted, hsteps, hhalt⟩ hle, hsteps] at h
    cases h
    rw [hhalt] at hrunning
    cases hrunning
  · intro hlt
    rw [stepsWithin_of_le hlt.le] at h
    by_contra hhalt
    have hnone : last.state = none := Option.not_isSome_iff_eq_none.mp hhalt
    rw [haltingTime_of_haltsAt ⟨last, h, hnone⟩] at hlt
    exact lt_irrefl _ hlt

/-- A machine that is still running makes one step more within one step more. -/
theorem steps?_stepsWithin_succ {n : ℕ} {last next : Configuration}
    (h : c.steps? table (c.stepsWithin table n) = some last)
    (hrunning : last.state.isSome = true) (hstep : last.step? table = some next) :
    c.steps? table (c.stepsWithin table (n + 1)) = some next := by
  have hlt : n < c.haltingTime table := (isSome_state_iff h).mp hrunning
  have hle : ((n + 1 : ℕ) : ℕ∞) ≤ c.haltingTime table := by
    rw [Nat.cast_succ]
    exact Order.add_one_le_of_lt hlt
  rw [stepsWithin_of_le hlt.le] at h
  rw [stepsWithin_of_le hle, steps?, h, Option.bind_some, hstep]

/-- A machine that has halted makes no more steps, however many it may make. -/
theorem stepsWithin_succ_of_halted {n : ℕ} {last : Configuration}
    (h : c.steps? table (c.stepsWithin table n) = some last) (hhalt : last.state = none) :
    c.stepsWithin table (n + 1) = c.stepsWithin table n := by
  have hle : c.stepsWithin table n ≤ n + 1 := (stepsWithin_le table c n).trans n.le_succ
  exact stepsWithin_of_haltsAt ⟨last, h, hhalt⟩ hle

end Configuration

end Metered
