import Mathlib.Data.Finset.Lattice.Fold
import Mathlib.Data.Finset.Range
import Metered.Proofs.Allowance
import Metered.Proofs.Simulation

/-!
# The Window of the Head

The recorded cells are a window on the infinite tape: the cells that were recorded at the start
and those that the head has come to since. How far it reaches to either side of where the head
started is the greater of what was recorded on that side and how far the head has been there.

A tick shifts the head by one position or not at all, and all that it does to the counters and to
the sides of the tape can be told from that shift (`Machine.Shifts`).

## Main results

* `Machine.shifts_tick`: what a tick does;
* `Machine.length_left_afterTicks`, `Machine.length_right_afterTicks`: the two sides of the tape
  after any number of ticks;
* `Machine.IsPrepared.total_afterTicks_le`: each transition records at most one more one;
* `Machine.window_after`: the window and the counters after any session.
-/

namespace Metered

/-- A move goes one position far. -/
theorem Direction.natAbs_delta (direction : Direction) : direction.delta.natAbs = 1 := by
  cases direction <;> rfl

/-! ### Running extremes -/

/-- The least of the first values of a sequence, up to an index. -/
def lowest (d : ℕ → ℤ) (k : ℕ) : ℤ :=
  (Finset.range (k + 1)).inf' Finset.nonempty_range_add_one d

/-- The greatest of the first values of a sequence, up to an index. -/
def highest (d : ℕ → ℤ) (k : ℕ) : ℤ :=
  (Finset.range (k + 1)).sup' Finset.nonempty_range_add_one d

@[simp] theorem lowest_zero (d : ℕ → ℤ) : lowest d 0 = d 0 := rfl

@[simp] theorem highest_zero (d : ℕ → ℤ) : highest d 0 = d 0 := rfl

/-- The least value with one more value. -/
theorem lowest_succ (d : ℕ → ℤ) (k : ℕ) : lowest d (k + 1) = min (d (k + 1)) (lowest d k) :=
  (Finset.inf'_congr _ Finset.range_add_one fun _ _ => rfl).trans
    (Finset.inf'_insert Finset.nonempty_range_add_one d)

/-- The greatest value with one more value. -/
theorem highest_succ (d : ℕ → ℤ) (k : ℕ) : highest d (k + 1) = max (d (k + 1)) (highest d k) :=
  (Finset.sup'_congr _ Finset.range_add_one fun _ _ => rfl).trans
    (Finset.sup'_insert Finset.nonempty_range_add_one d)

/-! ### Sides after a move -/

namespace Tape

variable {α : Type} [Zero α]

/-- A move to the left takes a cell from the left side if there is one, and a move to the right
adds one. -/
theorem length_left_move (tape : Tape α) (direction : Direction) (cell : α) :
    ((tape.move direction cell).left.length : ℤ) = max 0 (tape.left.length + direction.delta) := by
  obtain ⟨left, head, right⟩ := tape
  cases direction with
  | left => cases left <;> simp [move, moveLeft, Sequence.unconsD, Direction.delta]
  | right =>
      simp only [move, moveRight, Direction.delta, List.length_cons]
      omega

/-- A move to the right takes a cell from the right side if there is one, and a move to the left
adds one. -/
theorem length_right_move (tape : Tape α) (direction : Direction) (cell : α) :
    ((tape.move direction cell).right.length : ℤ) =
      max 0 (tape.right.length - direction.delta) := by
  obtain ⟨left, head, right⟩ := tape
  cases direction with
  | left =>
      simp only [move, moveLeft, Direction.delta, List.length_cons]
      omega
  | right => cases right <;> simp [move, moveRight, Sequence.unconsD, Direction.delta]

end Tape

namespace Machine

variable {machine : Machine} {table : Table}

/-! ### Shifts of the head -/

/-- The transition that a machine makes next, unless it has halted or has none to make. -/
def entry? (machine : Machine) : Option Transition :=
  if machine.halted then none
  else (Table.lookup machine.table machine.state machine.tape.head).toOption

/-- A tick makes the next transition if there is one. -/
theorem tick_eq_elim (machine : Machine) :
    machine.tick.2 = machine.entry?.elim machine machine.apply := by
  rw [tick, entry?, advance]
  split_ifs
  · rfl
  · cases Table.lookup machine.table machine.state machine.tape.head <;> rfl

/-- The change of the position of the head in the next tick. -/
def shift (machine : Machine) : ℤ :=
  machine.entry?.elim 0 fun entry => entry.heading.delta

/-- The displacement of the head from where it started, after a number of ticks. -/
def displacement (machine : Machine) : ℕ → ℤ
  | 0 => 0
  | count + 1 => machine.displacement count + (machine.afterTicks count).shift

/-- The displacement after one more tick. -/
theorem displacement_succ (machine : Machine) (count : ℕ) :
    machine.displacement (count + 1) =
      machine.displacement count + (machine.afterTicks count).shift := rfl

/-- **What a tick does**, as far as it depends on the shift of the head: the lengths of the two
sides and all the counters. -/
structure Shifts (shift : ℤ) (machine next : Machine) : Prop where
  natAbs_le : shift.natAbs ≤ 1
  left_eq : (next.tape.left.length : ℤ) = max 0 (machine.tape.left.length + shift)
  right_eq : (next.tape.right.length : ℤ) = max 0 (machine.tape.right.length - shift)
  steps_eq : next.steps = machine.steps + shift.natAbs
  leftMoves_eq : (next.leftMoves : ℤ) = machine.leftMoves + max 0 (-shift)
  rightMoves_eq : (next.rightMoves : ℤ) = machine.rightMoves + max 0 shift
  extent_eq : machine.extent = machine.tape.width → next.extent = next.tape.width

/-- A machine that stays as it is does not shift its head. -/
theorem shifts_zero (machine : Machine) : Shifts 0 machine machine where
  natAbs_le := Nat.zero_le 1
  left_eq := by omega
  right_eq := by omega
  steps_eq := rfl
  leftMoves_eq := by omega
  rightMoves_eq := by omega
  extent_eq := id

/-- A transition shifts the head by its move. -/
theorem shifts_apply (machine : Machine) (entry : Transition) :
    Shifts entry.heading.delta machine (machine.apply entry) where
  natAbs_le := entry.heading.natAbs_delta.le
  left_eq := machine.tape.length_left_move entry.heading entry.write
  right_eq := machine.tape.length_right_move entry.heading entry.write
  steps_eq := by
    rw [Direction.natAbs_delta]
    rfl
  leftMoves_eq := by
    simp only [apply]
    cases entry.heading <;> simp [Direction.delta]
  rightMoves_eq := by
    simp only [apply]
    cases entry.heading <;> simp [Direction.delta]
  extent_eq hextent := by
    have hleft := machine.tape.length_left_move entry.heading entry.write
    have hright := machine.tape.length_right_move entry.heading entry.write
    have hdelta := entry.heading.natAbs_delta
    change max machine.extent (machine.tape.move entry.heading entry.write).width =
      (machine.tape.move entry.heading entry.write).width
    rw [hextent, Tape.width, Tape.width]
    omega

/-- A tick shifts the head by the move of the next transition, if there is one. -/
theorem shifts_tick (machine : Machine) : Shifts machine.shift machine machine.tick.2 := by
  rw [tick_eq_elim, shift]
  cases machine.entry? with
  | none => exact shifts_zero machine
  | some entry => exact shifts_apply machine entry

/-- The tick after a number of them. -/
theorem shifts_afterTicks (machine : Machine) (count : ℕ) :
    Shifts (machine.afterTicks count).shift (machine.afterTicks count)
      (machine.afterTicks (count + 1)) := by
  rw [afterTicks_succ']
  exact shifts_tick _

/-! ### The window after ticks -/

/-- **The left side** reaches from the head back to the end of what was recorded there at the
start or to the leftmost position that the head has had, whichever is further. -/
theorem length_left_afterTicks (machine : Machine) (count : ℕ) :
    ((machine.afterTicks count).tape.left.length : ℤ) =
      max (machine.tape.left.length : ℤ) (-lowest machine.displacement count) +
        machine.displacement count := by
  induction count with
  | zero => simp [displacement]
  | succ count ih =>
      -- where nothing is left to go back to, the running minimum goes down with the head
      have hnext := (machine.shifts_afterTicks count).left_eq
      have hsum := machine.displacement_succ count
      rw [lowest_succ]
      omega

/-- **The right side** reaches from the head on to the end of what was recorded there at the
start or to the rightmost position that the head has had, whichever is further. -/
theorem length_right_afterTicks (machine : Machine) (count : ℕ) :
    ((machine.afterTicks count).tape.right.length : ℤ) =
      max (machine.tape.right.length : ℤ) (highest machine.displacement count) -
        machine.displacement count := by
  induction count with
  | zero => simp [displacement]
  | succ count ih =>
      have hnext := (machine.shifts_afterTicks count).right_eq
      have hsum := machine.displacement_succ count
      rw [highest_succ]
      omega

/-- The moves to either side add up to the transitions, and their difference to the displacement
of the head. -/
theorem moves_afterTicks (machine : Machine) (count : ℕ) :
    (machine.afterTicks count).leftMoves + (machine.afterTicks count).rightMoves +
        machine.steps =
      machine.leftMoves + machine.rightMoves + (machine.afterTicks count).steps ∧
    ((machine.afterTicks count).rightMoves : ℤ) - (machine.afterTicks count).leftMoves =
      machine.rightMoves - machine.leftMoves + machine.displacement count := by
  induction count with
  | zero => exact ⟨rfl, (Int.add_zero _).symm⟩
  | succ count ih =>
      obtain ⟨hsteps, hmoves⟩ := ih
      have hnext := machine.shifts_afterTicks count
      have hleft := hnext.leftMoves_eq
      have hright := hnext.rightMoves_eq
      have hsum := machine.displacement_succ count
      rw [hnext.steps_eq]
      constructor <;> omega

/-- The extent is the number of recorded cells, as it is at the start. -/
theorem extent_afterTicks (h : machine.extent = machine.tape.width) (count : ℕ) :
    (machine.afterTicks count).extent = (machine.afterTicks count).tape.width := by
  induction count with
  | zero => exact h
  | succ count ih => exact (machine.shifts_afterTicks count).extent_eq ih

/-- The recorded cells do not become fewer, and with each transition at most one is added. -/
theorem width_afterTicks_le (machine : Machine) (count : ℕ) :
    machine.tape.width ≤ (machine.afterTicks count).tape.width ∧
    (machine.afterTicks count).tape.width + machine.steps ≤
      machine.tape.width + (machine.afterTicks count).steps := by
  induction count with
  | zero => exact ⟨Nat.le_refl _, Nat.le_refl _⟩
  | succ count ih =>
      have hnext := machine.shifts_afterTicks count
      have hleft := hnext.left_eq
      have hright := hnext.right_eq
      have hshift := hnext.natAbs_le
      rw [hnext.steps_eq]
      simp only [Tape.width] at ih ⊢
      omega

/-- So many ticks make at most so many transitions. -/
theorem steps_afterTicks_le (machine : Machine) (count : ℕ) :
    (machine.afterTicks count).steps ≤ machine.steps + count := by
  induction count with
  | zero => exact Nat.le_refl _
  | succ count ih =>
      have hnext := machine.shifts_afterTicks count
      have hshift := hnext.natAbs_le
      rw [hnext.steps_eq]
      omega

/-- If so many ticks have made as many transitions, each of them has made one. -/
theorem steps_afterTicks_of_le {k j : ℕ} (h : (machine.afterTicks k).steps = machine.steps + k)
    (hj : j ≤ k) : (machine.afterTicks j).steps = machine.steps + j := by
  have hfirst := machine.steps_afterTicks_le j
  have hrest := (machine.afterTicks j).steps_afterTicks_le (k - j)
  rw [← afterTicks_add, Nat.add_sub_cancel' hj, h] at hrest
  omega

/-- A session leaves the machine that as many ticks lead to as it has made transitions. -/
theorem exists_after_steps (machine : Machine) (commands : List Command) (settings : Settings) :
    ∃ made, machine.after commands settings = machine.afterTicks made ∧
      (machine.after commands settings).steps = machine.steps + made := by
  obtain ⟨count, hcount⟩ := machine.exists_after_eq commands settings
  obtain ⟨made, heq, hsteps, -⟩ := afterTicks_cases machine count
  exact ⟨made, hcount.trans heq, by rw [hcount, heq, hsteps]⟩

/-- **The extent is a present width.** In a session it does not shrink, and it grows by at most
one with each transition. -/
theorem extent_after_le (h : machine.extent = machine.tape.width) (settings : Settings)
    (commands : List Command) :
    let later := machine.after commands settings
    machine.extent ≤ later.extent ∧ machine.steps ≤ later.steps ∧
      later.extent ≤ machine.extent + (later.steps - machine.steps) := by
  intro later
  obtain ⟨made, heq, hsteps⟩ : ∃ made, later = machine.afterTicks made ∧
      later.steps = machine.steps + made := machine.exists_after_steps commands settings
  obtain ⟨hleast, hmost⟩ := machine.width_afterTicks_le made
  have hextent := extent_afterTicks h made
  rw [← heq] at hextent hleast hmost
  rw [hextent, h]
  omega

/-! ### Ones -/

/-- **On a tape of bits** each transition writes at most one more one. -/
theorem IsPrepared.total_afterTicks_le (h : machine.IsPrepared table)
    (hcells : machine.tape.IsBinary) (count : ℕ) :
    (machine.afterTicks count).tape.IsBinary ∧
    (machine.afterTicks count).tape.total + machine.steps ≤
      machine.tape.total + (machine.afterTicks count).steps := by
  have hbit : ∀ bit, (Datum.ofBit bit).summand? = some 0 ∨ (Datum.ofBit bit).summand? = some 1 := by
    intro bit
    cases bit with
    | false => exact .inl rfl
    | true => exact .inr rfl
  refine h.afterTicks_induction (P := fun m => m.tape.IsBinary ∧
    m.tape.total + machine.steps ≤ machine.tape.total + m.steps) ⟨hcells, Int.le_refl _⟩ ?_ count
  rintro m instruction ⟨hm, hle⟩
  refine ⟨Tape.forall_mem_cells_move hbit hm _ instruction.write, ?_⟩
  have htotal : (m.apply instruction.toTransition).tape.total =
      m.tape.total - m.tape.head.summand + (Datum.ofBit instruction.write).summand :=
    m.tape.total_move _ _
  have hsteps : (m.apply instruction.toTransition).steps = m.steps + 1 := rfl
  have hhead := hm.summand_cases m.tape.head_mem_cells
  have hwritten : (Datum.ofBit instruction.write).summand ≤ 1 := by
    cases instruction.write <;> decide
  rw [htotal, hsteps]
  omega

/-- The ones after a number of ticks, as a sum of cells. -/
theorem IsPrepared.ones_afterTicks_le (h : machine.IsPrepared table)
    (hcells : machine.tape.IsBinary) (count : ℕ) :
    ∃ n₀ n : ℤ, machine.tape.ones = .ok (.int n₀) ∧
      (machine.afterTicks count).tape.ones = .ok (.int n) ∧
      n ≤ (machine.afterTicks count).tape.width ∧
      n + machine.steps ≤ n₀ + (machine.afterTicks count).steps := by
  obtain ⟨hlast, htotal⟩ := h.total_afterTicks_le hcells count
  exact ⟨_, _, Tape.ones_eq_total hcells.isIntegral, Tape.ones_eq_total hlast.isIntegral,
    hlast.total_le, htotal⟩

/-! ### The window after a session -/

/-- **The recorded tape is the window of the head.** A table that passes its check, a tape and an
integer for a state make a machine. After any session, whatever the settings are, it has made so
many transitions, one with each tick up to as many, and `d j` is the displacement of the head after
`j` of them. The window reaches as far to the left and to the right as the start tape and these
displacements do; the position of the head, the cells beyond it, the counters of the moves and the
extent are read off it. So the extent is the present number of cells, and in any further session it
does not shrink and grows by at most one with each transition. On a tape of bits the ones are at
most as many as the cells, and at most one for each transition more than at the start. -/
theorem window_after {raw : Datum} (h : Table.ofDatum raw = .ok table) (tape : Tape Datum)
    (state : ℤ) :
    ∃ machine, ofData raw tape.toDatum (.int state) = .ok machine ∧
      ∀ (settings : Settings) (commands : List Command),
        let now := machine.after commands settings
        let k := now.steps
        let d := machine.displacement
        let lo := max (tape.left.length : ℤ) (-lowest d k)
        let hi := max (tape.right.length : ℤ) (highest d k)
        now = machine.afterTicks k ∧ (∀ j ≤ k, (machine.afterTicks j).steps = j) ∧
        now.leftMoves + now.rightMoves = k ∧
        (now.rightMoves : ℤ) - now.leftMoves = d k ∧
        now.tape.position = lo + d k ∧ now.tape.right.length = hi - d k ∧
        now.extent = lo + hi + 1 ∧ now.tape.cells.length = now.extent ∧
        (∀ more : List Command,
          let later := now.after more settings
          now.extent ≤ later.extent ∧ now.steps ≤ later.steps ∧
            later.extent ≤ now.extent + (later.steps - now.steps)) ∧
        (tape.IsBinary → ∃ n₀ n : ℤ,
          tape.ones = .ok (.int n₀) ∧ now.tape.ones = .ok (.int n) ∧
            n ≤ now.extent ∧ n ≤ n₀ + k) := by
  refine ⟨_, ofData_eq_start h tape (.int state), fun settings commands => ?_⟩
  intro now k d lo hi
  obtain ⟨hnow, hsteps⟩ : now = (start table tape (.int state)).afterTicks k ∧
      ((start table tape (.int state)).afterTicks k).steps = k := by
    obtain ⟨made, heq, hmade⟩ :=
      exists_after_steps (start table tape (.int state)) commands settings
    obtain rfl : k = made := hmade.trans (Nat.zero_add made)
    exact ⟨heq, by rw [← heq]⟩
  have hextent : now.extent = now.tape.width := by
    rw [hnow]
    exact extent_afterTicks rfl k
  have hleft : (now.tape.left.length : ℤ) = lo + d k := by
    rw [hnow]
    exact length_left_afterTicks _ k
  have hright : (now.tape.right.length : ℤ) = hi - d k := by
    rw [hnow]
    exact length_right_afterTicks _ k
  obtain ⟨hmoves, hdifference⟩ := moves_afterTicks (start table tape (.int state)) k
  rw [← hnow] at hmoves hdifference
  refine ⟨hnow, fun j hj => ?_, ?_, ?_, hleft, hright, ?_, ?_, extent_after_le hextent settings, ?_⟩
  · exact (steps_afterTicks_of_le (hsteps.trans (Nat.zero_add k).symm) hj).trans (Nat.zero_add j)
  · exact hmoves.trans (Nat.zero_add k)
  · exact hdifference.trans (Int.zero_add _)
  · rw [hextent, Tape.width]
    omega
  · rw [Tape.length_cells, hextent]
  · intro hcells
    obtain ⟨n₀, n, hones₀, hones, hwidth, hsum⟩ :=
      (isPrepared_start table tape state).ones_afterTicks_le hcells k
    rw [← hnow] at hones hwidth hsum
    refine ⟨n₀, n, hones₀, hones, ?_, ?_⟩
    · rwa [hextent]
    · exact (Int.add_zero n).symm.trans_le hsum

end Machine

/-- On the blank tape the champion of three states has recorded just the cells that its head has
been at, and no more ones than transitions. -/
theorem BusyBeaver.threeStates_window :
    Table.ofDatum threeStates.table = .ok threeStatesTable ∧ (Tape.blank : Tape Datum).IsBinary ∧
    ∃ machine,
      Machine.ofData threeStates.table (Tape.blank : Tape Datum).toDatum (.int 0) = .ok machine ∧
      ∀ commands : List Machine.Command,
        let now := machine.after commands
        let d := machine.displacement
        let lo := max 0 (-lowest d now.steps)
        let hi := max 0 (highest d now.steps)
        (now.rightMoves : ℤ) - now.leftMoves = d now.steps ∧
        now.tape.position = lo + d now.steps ∧ now.tape.right.length = hi - d now.steps ∧
        now.extent = lo + hi + 1 ∧
        ∃ n : ℤ, now.tape.ones = .ok (.int n) ∧ n ≤ now.extent ∧ n ≤ now.steps := by
  have hchecked : Table.ofDatum threeStates.table = .ok threeStatesTable := rfl
  have hcells : (Tape.blank : Tape Datum).IsBinary := by
    intro cell hcell
    obtain rfl := List.mem_singleton.mp hcell
    exact .inl rfl
  obtain ⟨machine, hmachine, hwindow⟩ := Machine.window_after hchecked Tape.blank 0
  refine ⟨hchecked, hcells, machine, hmachine, fun commands => ?_⟩
  intro now d lo hi
  obtain ⟨-, -, -, hdifference, hposition, hright, hextent, -, -, hbits⟩ := hwindow {} commands
  obtain ⟨n₀, n, hones₀, hones, hwidth, hsum⟩ := hbits hcells
  obtain rfl : 0 = n₀ := by
    have hblank : (Tape.blank : Tape Datum).ones = .ok (.int 0) := rfl
    rw [hblank] at hones₀
    cases hones₀
    rfl
  refine ⟨hdifference, hposition, hright, hextent, n, hones, hwidth, ?_⟩
  rwa [Int.zero_add] at hsum

end Metered
