import Mathlib.Data.Int.Notation
import Mathlib.Data.List.Forall2
import Mathlib.Data.Nat.Notation
import Mathlib.Order.Basic
import Mathlib.Tactic.SplitIfs
import Metered.Turing.Lookup

/-!
# Checked Tables

What the check of a table promises about it. A checked table is **closed**: each of its
instructions goes on to a state of the table or halts. So a look-up in its normal form that
starts from one of its states never fails, and never leads out of the table.

## Main results

* `Table.isClosed_of_ofDatum`: a checked table is closed;
* `Table.ofDatum_toDatum`: the normal form of a closed table passes the check;
* `Table.lookup_toDatum`: look-ups in the normal form of a table;
* `Table.lookup_toDatum_int`: the same where the state and the cell may be anything.
-/

namespace Metered

/-! ### Checks that succeed -/

section

variable {α β ε ε' : Type}

/-- Two checks in turn succeed only if both of them do. -/
theorem exists_of_bind_eq_ok {check : Except ε α} {next : α → Except ε β} {b : β}
    (h : check >>= next = .ok b) : ∃ a, check = .ok a ∧ next a = .ok b := by
  cases check with
  | error fault => cases h
  | ok a => exact ⟨a, rfl, h⟩

/-- A function of what a check yields comes only from a check that succeeds. -/
theorem exists_of_map_eq_ok {check : Except ε α} {f : α → β} {b : β}
    (h : check.map f = .ok b) : ∃ a, check = .ok a ∧ f a = b := by
  cases check with
  | error fault => cases h
  | ok a =>
      cases h
      exact ⟨a, rfl, rfl⟩

/-- A check does not succeed by telling its fault in other words. -/
theorem eq_ok_of_mapError {check : Except ε α} {f : ε → ε'} {a : α}
    (h : check.mapError f = .ok a) : check = .ok a := by
  cases check with
  | error fault => cases h
  | ok a =>
      cases h
      rfl

end

/-! ### States and instructions -/

/-- The number of a state; no state is the halt. -/
def stateNumber (state : Option ℕ) : ℤ :=
  state.elim haltState Int.ofNat

/-- Of all integers for a state only one is the halt. -/
theorem isHalt_int (n : ℤ) : isHalt (.int n) = decide (n = haltState) := by
  simp [isHalt, Datum.integer?, Bool.beq_eq_decide_eq]

/-- Only the halt has the number of the halt. -/
theorem isHalt_stateNumber (state : Option ℕ) :
    isHalt (.int (stateNumber state)) = state.isNone := by
  cases state <;> rfl

/-- The instruction of a state for a bit. -/
def State.instruction (state : State) (bit : Bool) : Instruction :=
  if bit then state.onOne else state.onZero

/-! ### Checked entries and states -/

/-- The next state of an instruction, if it does not halt, is one of `count` states. -/
def Instruction.IsWithin (count : ℕ) (instruction : Instruction) : Prop :=
  ∀ s ∈ instruction.next, s < count

/-- The next state of an entry is one of the table. -/
theorem Instruction.next?_lt {count : ℕ} {next : Datum} {target : Option ℕ}
    (h : next? count next = some target) : ∀ s ∈ target, s < count := by
  rintro s rfl
  cases next with
  | int n =>
      rw [next?] at h
      split_ifs at h with hhalt hrange
      · cases h
      · obtain rfl : n.toNat = s := by simpa using h
        omega
  | _ => cases h

/-- **A checked entry** has three fields, each of which passes its check. -/
theorem Instruction.exists_of_ofDatum {count : ℕ} {entry : Datum} {instruction : Instruction}
    (h : ofDatum count entry = .ok instruction) :
    ∃ write move next, fields? entry = some (write, move, next) ∧
      write? write = some instruction.write ∧ direction? move = some instruction.move ∧
      next? count next = some instruction.next := by
  rw [ofDatum] at h
  split at h
  · cases h
  · rename_i hfields
    split at h
    · cases h
    · rename_i hwrite
      split at h
      · cases h
      · rename_i hmove
        split at h
        · cases h
        · rename_i hnext
          cases h
          exact ⟨_, _, _, hfields, hwrite, hmove, hnext⟩

/-- A checked entry stays within the table. -/
theorem Instruction.isWithin_of_ofDatum {count : ℕ} {entry : Datum} {instruction : Instruction}
    (h : ofDatum count entry = .ok instruction) : instruction.IsWithin count := by
  obtain ⟨_, _, _, -, -, -, hnext⟩ := exists_of_ofDatum h
  exact next?_lt hnext

/-- The field for the bit that is written holds that bit. -/
theorem Instruction.eq_of_write? {write : Datum} {bit : Bool} (h : write? write = some bit) :
    write = .ofBit bit := by
  simp only [write?] at h
  split at h
  · obtain rfl : false = bit := Option.some.inj h
    rfl
  · obtain rfl : true = bit := Option.some.inj h
    rfl
  · cases h

/-- The field for the next state holds its number. -/
theorem Instruction.eq_of_next? {count : ℕ} {next : Datum} {target : Option ℕ}
    (h : next? count next = some target) : next = .int (stateNumber target) := by
  cases next with
  | int n =>
      rw [next?] at h
      split_ifs at h with hhalt hrange
      · cases h
        rw [hhalt]
        rfl
      · cases h
        rw [stateNumber, Option.elim_some, Int.ofNat_eq_natCast, Int.toNat_of_nonneg hrange.1]
  | _ => cases h

/-- **A checked transition** has the bit and the number of its instruction as they are, and its
move in any form that is read as a direction. -/
theorem Instruction.fields_of_ofDatum {count : ℕ} {write move next : Datum}
    {instruction : Instruction} (h : ofDatum count (.transition write move next) = .ok instruction) :
    write = .ofBit instruction.write ∧ direction? move = some instruction.move ∧
      next = .int instruction.nextNumber := by
  obtain ⟨_, _, _, hfields, hwrite, hmove, hnext⟩ := exists_of_ofDatum h
  cases hfields
  exact ⟨eq_of_write? hwrite, hmove, eq_of_next? hnext⟩

/-- **A checked state** has an entry for each bit, which passes its check. -/
theorem State.exists_of_ofDatum {count number : ℕ} {raw : Datum} {state : State}
    (h : ofDatum count number raw = .ok state) (bit : Bool) :
    ∃ found, raw.index? (.ofBit bit) = some found ∧
      Instruction.ofDatum count found = .ok (state.instruction bit) := by
  have hentry : entry count number raw bit = .ok (state.instruction bit) := by
    obtain ⟨onZero, hzero, h⟩ := exists_of_bind_eq_ok h
    obtain ⟨onOne, hone, h⟩ := exists_of_bind_eq_ok h
    cases h
    cases bit with
    | false => exact hzero
    | true => exact hone
  simp only [entry] at hentry
  split at hentry
  · cases hentry
  · rename_i found hfound
    exact ⟨found, hfound, eq_ok_of_mapError hentry⟩

/-- An instruction that stays within the table passes the check of its transition. -/
theorem Instruction.ofDatum_toTransition {count : ℕ} {instruction : Instruction}
    (h : instruction.IsWithin count) :
    ofDatum count instruction.toTransition.toDatum = .ok instruction := by
  obtain ⟨write, move, next⟩ := instruction
  have hwrite : Instruction.write? (.ofBit write) = some write := by cases write <;> rfl
  have hmove : Instruction.direction? (.direction move) = some move := rfl
  have hnext : Instruction.next? count (.int (Instruction.nextNumber ⟨write, move, next⟩)) =
      some next := by
    cases next with
    | none => rfl
    | some s =>
        have hhalt : (s : ℤ) ≠ haltState := by
          rw [haltState]
          omega
        have hrange : (0 : ℤ) ≤ s ∧ (s : ℤ) < count :=
          ⟨Int.natCast_nonneg s, Int.ofNat_lt.mpr (h s rfl)⟩
        change Instruction.next? count (.int (s : ℤ)) = _
        rw [Instruction.next?, if_neg hhalt, if_pos hrange, Int.toNat_natCast]
  have hfields : Instruction.fields?
      (Instruction.toTransition ⟨write, move, next⟩).toDatum =
      some (.ofBit write, .direction move, .int (Instruction.nextNumber ⟨write, move, next⟩)) :=
    rfl
  simp only [Instruction.ofDatum, hfields, hwrite, hmove, hnext]

/-- A state whose instructions stay within the table passes the check of its normal form. -/
theorem State.ofDatum_toDatum {count : ℕ} {state : State}
    (h : ∀ bit, (state.instruction bit).IsWithin count) (number : ℕ) :
    ofDatum count number state.toDatum = .ok state := by
  have hentry : ∀ bit, entry count number state.toDatum bit =
      .ok (state.instruction bit) := by
    intro bit
    have hindex : state.toDatum.index? (.ofBit bit) =
        some (state.instruction bit).toTransition.toDatum := by
      cases bit <;> rfl
    simp only [entry, hindex, Instruction.ofDatum_toTransition (h bit)]
    rfl
  rw [ofDatum, hentry false, hentry true]
  rfl

/-! ### Closed tables -/

namespace Table

/-- Every instruction of a closed table goes on to a state of the table or halts. -/
def IsClosed (table : Table) : Prop :=
  ∀ state ∈ table.states, ∀ bit, (state.instruction bit).IsWithin table.states.length

/-- The states of a table are checked one by one. -/
theorem forall₂_of_statesOfData {count number : ℕ} {raws : List Datum} {states : List State}
    (h : statesOfData count number raws = .ok states) :
    List.Forall₂ (fun raw state => ∃ number, State.ofDatum count number raw = .ok state)
      raws states := by
  induction raws generalizing number states with
  | nil =>
      cases h
      exact .nil
  | cons raw rest ih =>
      obtain ⟨first, hfirst, h⟩ := exists_of_bind_eq_ok h
      obtain ⟨others, hrest, h⟩ := exists_of_bind_eq_ok h
      cases h
      exact .cons ⟨number, hfirst⟩ (ih hrest)

/-- **A checked table** consists of the checked states of a container, which has at least one. -/
theorem exists_of_ofDatum {raw : Datum} {table : Table} (h : ofDatum raw = .ok table) :
    ∃ raws, raw.items? = some raws ∧ raws ≠ [] ∧
      List.Forall₂ (fun raw state => ∃ number, State.ofDatum raws.length number raw = .ok state)
        raws table.states := by
  rw [ofDatum] at h
  split at h
  · cases h
  · cases h
  · rename_i raws hne hitems
    obtain ⟨states, hstates, rfl⟩ := exists_of_map_eq_ok h
    exact ⟨raws, hitems, hne, forall₂_of_statesOfData hstates⟩

/-- **Checked tables are closed.** -/
theorem isClosed_of_ofDatum {raw : Datum} {table : Table} (h : ofDatum raw = .ok table) :
    table.IsClosed := by
  obtain ⟨raws, -, -, hstates⟩ := exists_of_ofDatum h
  intro state hstate bit
  obtain ⟨s, hs, rfl⟩ := List.mem_iff_getElem.mp hstate
  have hs' : s < raws.length := hstates.length_eq ▸ hs
  obtain ⟨number, hchecked⟩ := hstates.get hs' hs
  obtain ⟨found, -, hfound⟩ := State.exists_of_ofDatum hchecked bit
  rw [← hstates.length_eq]
  exact Instruction.isWithin_of_ofDatum hfound

/-- A checked table has a state. -/
theorem states_ne_nil_of_ofDatum {raw : Datum} {table : Table} (h : ofDatum raw = .ok table) :
    table.states ≠ [] := by
  obtain ⟨raws, -, hne, hstates⟩ := exists_of_ofDatum h
  rintro hnil
  rw [hnil, List.forall₂_nil_right_iff] at hstates
  exact hne hstates

/-! ### Normal forms -/

/-- The states of a table pass the check one by one. -/
theorem statesOfData_toDatum {count : ℕ} {states : List State}
    (h : ∀ state ∈ states, ∀ bit, (state.instruction bit).IsWithin count) (number : ℕ) :
    statesOfData count number (states.map State.toDatum) = .ok states := by
  induction states generalizing number with
  | nil => rfl
  | cons state rest ih =>
      have hrest := ih (fun other hother => h other (List.mem_cons_of_mem _ hother)) (number + 1)
      rw [List.map_cons, statesOfData, State.ofDatum_toDatum (h state List.mem_cons_self)]
      change (statesOfData count (number + 1) (rest.map State.toDatum) >>= fun states => _) = _
      rw [hrest]
      rfl

/-- **Normal forms pass the check** and are the tables that they are written from. -/
theorem ofDatum_toDatum {table : Table} (hclosed : table.IsClosed) (hne : table.states ≠ []) :
    ofDatum table.toDatum = .ok table := by
  obtain ⟨states⟩ := table
  obtain ⟨first, rest, rfl⟩ := List.exists_cons_of_ne_nil hne
  have hlength : ((first :: rest).map State.toDatum).length = (first :: rest).length :=
    List.length_map _
  have hstates := statesOfData_toDatum hclosed 0
  change (statesOfData ((first :: rest).map State.toDatum).length 0
    ((first :: rest).map State.toDatum)).map Table.mk = _
  rw [hlength, hstates]
  rfl

/-- A table in normal form consists of dictionaries of transitions. -/
theorem isLiteral_toDatum (table : Table) : isLiteral table.toDatum = true := by
  refine List.all_eq_true.mpr fun entry hentry => ?_
  obtain ⟨state, -, rfl⟩ := List.mem_map.mp hentry
  rfl

/-- A table in normal form is taken as it is. -/
theorem ofLiteral_toDatum (table : Table) : ofLiteral table.toDatum = .ok table.toDatum := by
  rw [ofLiteral, if_pos table.isLiteral_toDatum]

/-! ### Look-ups -/

/-- A look-up from an integer state: the state must be one of the table, and then must have
an entry for the cell. -/
theorem lookup_int (states : List Datum) (state : ℤ) (cell : Datum) :
    lookup (.tuple states) (.int state) cell =
      if 0 ≤ state ∧ state < states.length then entryAt (.tuple states) (.int state) cell
      else .error (.undefinedTransition .outside (.int state) cell) := by
  have hnumber : (Datum.int state).number? = some (.int state) := rfl
  have hsize : (Datum.tuple states).size? = some states.length := rfl
  have hleast : (Number.int state).isAtLeast 0 = decide (0 ≤ state) := rfl
  have hbelow : (Number.int state).isBelow (.int states.length) =
      decide (state < states.length) := rfl
  simp only [lookup, hnumber, hsize, hleast, hbelow]
  by_cases hlow : 0 ≤ state
  · by_cases hhigh : state < states.length
    · simp [hlow, hhigh]
    · simp [hlow, hhigh]
  · simp [hlow]

/-- A state of a table under its number. -/
theorem index?_tuple {states : List Datum} {s : ℕ} (hs : s < states.length) :
    (Datum.tuple states).index? (.int s) = some states[s] := by
  have hitem : Datum.itemAt? states s = some states[s] := by
    rw [Datum.itemAt?, if_pos (Int.natCast_nonneg s), Int.toNat_natCast,
      List.getElem?_eq_getElem hs]
  exact hitem

/-- An integer equals a datum if that is its value as a number. -/
theorem equals_int (n : ℤ) (cell : Datum) :
    Datum.equals (.int n) cell = decide (cell.integer? = some n) := by
  have hnumber : Datum.equals (.int n) cell = Datum.equalsNumber (.int n) cell := by
    cases cell <;> simp [Datum.equals]
  rw [hnumber, Datum.equalsNumber.eq_def]
  cases cell.integer? with
  | none => rfl
  | some m => simp [Datum.integer?, Bool.beq_eq_decide_eq, eq_comm]

/-- A bit equals a datum if that is its value as a bit. -/
theorem equals_ofBit (bit : Bool) (cell : Datum) :
    Datum.equals (.ofBit bit) cell = decide (cell.bit? = some bit) := by
  rw [Datum.ofBit, equals_int, Datum.bit?]
  cases cell.integer? with
  | none => rfl
  | some n =>
      by_cases hzero : n = 0
      · subst hzero
        cases bit <;> rfl
      · by_cases hone : n = 1
        · subst hone
          cases bit <;> rfl
        · cases bit <;> simp [hzero, hone]

/-- **The entries of a state in normal form**: there is one for a cell exactly if the cell
equals a bit. -/
theorem index?_toDatum (state : State) (cell : Datum) :
    state.toDatum.index? cell =
      cell.bit?.map fun bit => (state.instruction bit).toTransition.toDatum := by
  have hzero : Datum.equals (.int 0) cell = decide (cell.bit? = some false) :=
    equals_ofBit false cell
  have hone : Datum.equals (.int 1) cell = decide (cell.bit? = some true) :=
    equals_ofBit true cell
  change Datum.lookup? _ cell = _
  simp only [Datum.lookup?, List.find?_cons, List.find?_nil, hzero, hone]
  cases cell.bit? with
  | none => rfl
  | some bit => cases bit <;> rfl

/-- The instruction of a table for any integer as a state and any cell: the state may not be one
of the table, and the cell no bit. -/
def instructionAt (table : Table) (state : ℤ) (cell : Datum) : Except TableFault Instruction :=
  if state < 0 then .error .outside
  else match table.states[state.toNat]?, cell.bit? with
    | none, _ => .error .outside
    | some _, none => .error .missing
    | some found, some bit => .ok (found.instruction bit)

/-- **Look-ups from any integer state for any cell** in a table in normal form find the
instruction that there is, or nothing, and then the fault names the state and the cell. -/
theorem lookup_toDatum_int (table : Table) (state : ℤ) (cell : Datum) :
    lookup table.toDatum (.int state) cell =
      ((table.instructionAt state cell).map Instruction.toTransition).mapError fun cause =>
        .undefinedTransition cause (.int state) cell := by
  rw [toDatum, lookup_int, instructionAt, List.length_map]
  by_cases hlow : state < 0
  · rw [if_neg (by omega), if_pos hlow]
    rfl
  · obtain ⟨s, rfl⟩ := Int.eq_ofNat_of_zero_le (Int.not_lt.mp hlow)
    rw [if_neg hlow, Int.toNat_natCast]
    by_cases hs : s < table.states.length
    · have hindex : s < (table.states.map State.toDatum).length := by rwa [List.length_map]
      rw [if_pos (by omega), List.getElem?_eq_getElem hs, entryAt, index?_tuple hindex,
        Option.bind_some, List.getElem_map, index?_toDatum]
      cases cell.bit? <;> rfl
    · rw [if_neg (by omega), List.getElem?_eq_none (Nat.not_lt.mp hs)]
      rfl

/-- **Look-ups in a table in normal form** find the instructions of its states. -/
theorem lookup_toDatum {table : Table} {s : ℕ} (hs : s < table.states.length) (bit : Bool) :
    lookup table.toDatum (.int s) (.ofBit bit) =
      .ok (table.states[s].instruction bit).toTransition := by
  have hbit : (Datum.ofBit bit).bit? = some bit := by cases bit <;> rfl
  rw [lookup_toDatum_int, instructionAt, if_neg (by omega), Int.toNat_natCast,
    List.getElem?_eq_getElem hs, hbit]
  rfl

end Table

end Metered
