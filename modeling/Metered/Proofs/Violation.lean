import Metered.Proofs.NormalTable

/-!
# The First Violation

The check of a table goes through its states in order, through the two bits of each state, and
through the fields of each entry, and ends with the first thing that will not do. What will do is
said here without the check: a state **spells** a transition for a bit if it has an entry under that
bit which is a transition or yields three items, and these are a bit, a direction and the number of
a state of the table or of the halt. Each of these conditions can be violated in one way
(`State.HasFault`), and the violations of an entry have an order (`TableFault.rank`).

## Main results

* `State.HasFault.not_isSpelled`: an entry with a fault spells nothing;
* `Table.IsFirstViolation.unique`: a table has only one first violation;
* `State.entry_cases`: the check of an entry yields what it spells, or the first of its faults;
* `Table.statesOfData_cases`: the check of the states yields what they spell, or the first fault of
  the first entry that has one;
* `Table.ofDatum_exact`: exactly the well-formed tables pass the check, and what becomes of them
  and of all others.
-/

namespace Metered

/-- The place of a fault in the order in which the faults of an entry are looked for. -/
def TableFault.rank : TableFault → ℕ
  | .missing => 0
  | .notTriple _ => 1
  | .badWrite _ => 2
  | .badMove _ => 3
  | .badNext _ _ => 4
  | _ => 5

namespace State

variable {count : ℕ} {state : Datum} {bit : Bool}

/-! ### What an entry spells -/

/-- The fields of the entry for a bit: the state has an entry under the bit, which is a transition
or yields just three items. -/
def HasFields (state : Datum) (bit : Bool) (write move next : Datum) : Prop :=
  ∃ entry, state.index? (.ofBit bit) = some entry ∧
    Instruction.fields? entry = some (write, move, next)

/-- What can be written: one of two integers, but no truth value. -/
def IsBit (write : Datum) : Prop :=
  write = .int 0 ∨ write = .int 1

/-- What can come next in a table of `count` states: the integer of the halt or of a state. -/
def IsTarget (count : ℕ) (next : Datum) : Prop :=
  ∃ n : ℤ, next = .int n ∧ (n = haltState ∨ 0 ≤ n ∧ n < count)

/-- **What a state spells** for a bit, in a table of `count` states. -/
structure Spells (count : ℕ) (state : Datum) (bit : Bool) (write : Datum) (direction : Direction)
    (next : Datum) : Prop where
  isBit : IsBit write
  isTarget : IsTarget count next
  hasFields : ∃ move, HasFields state bit write move next ∧ Direction.ofDatum move = .ok direction

/-- A state spells something for a bit. -/
def IsSpelled (count : ℕ) (state : Datum) (bit : Bool) : Prop :=
  ∃ write direction next, Spells count state bit write direction next

/-! ### Faults of an entry -/

/-- **The faults of an entry**, each of which it may have whatever its other fields are. -/
inductive HasFault (count : ℕ) (state : Datum) (bit : Bool) : TableFault → Prop
  | missing : state.index? (.ofBit bit) = none → HasFault count state bit .missing
  | notTriple {entry : Datum} : state.index? (.ofBit bit) = some entry →
      Instruction.fields? entry = none → HasFault count state bit (.notTriple entry)
  | badWrite {write move next : Datum} : HasFields state bit write move next →
      ¬ IsBit write → HasFault count state bit (.badWrite write)
  | badMove {write move next : Datum} : HasFields state bit write move next →
      (∀ direction, Direction.ofDatum move ≠ .ok direction) →
      HasFault count state bit (.badMove move)
  | badNext {write move next : Datum} : HasFields state bit write move next →
      ¬ IsTarget count next → HasFault count state bit (.badNext next count)

/-- The fault of an entry that is looked for before all others which it has. -/
structure IsFirstFault (count : ℕ) (state : Datum) (bit : Bool) (cause : TableFault) : Prop where
  hasFault : HasFault count state bit cause
  rank_le : ∀ other, HasFault count state bit other → cause.rank ≤ other.rank

/-- An entry has its fields only once. -/
theorem HasFields.unique {write move next write' move' next' : Datum}
    (h : HasFields state bit write move next) (h' : HasFields state bit write' move' next') :
    write = write' ∧ move = move' ∧ next = next' := by
  obtain ⟨entry, hentry, hfields⟩ := h
  obtain ⟨entry', hentry', hfields'⟩ := h'
  obtain rfl : entry = entry' := Option.some.inj (hentry.symm.trans hentry')
  cases hfields.symm.trans hfields'
  exact ⟨rfl, rfl, rfl⟩

/-- The faults that an entry of three fields may have. -/
theorem HasFault.of_hasFields {write move next : Datum} {cause : TableFault}
    (h : HasFields state bit write move next) (hfault : HasFault count state bit cause) :
    (cause = .badWrite write ∧ ¬ IsBit write) ∨
      (cause = .badMove move ∧ ∀ direction, Direction.ofDatum move ≠ .ok direction) ∨
      (cause = .badNext next count ∧ ¬ IsTarget count next) := by
  cases hfault with
  | missing hnone =>
      obtain ⟨entry, hentry, -⟩ := h
      cases hnone.symm.trans hentry
  | notTriple hfound hnone =>
      obtain ⟨entry, hentry, hfields⟩ := h
      cases hfound.symm.trans hentry
      cases hnone.symm.trans hfields
  | badWrite h' hwrite =>
      obtain ⟨rfl, -, -⟩ := h.unique h'
      exact .inl ⟨rfl, hwrite⟩
  | badMove h' hmove =>
      obtain ⟨-, rfl, -⟩ := h.unique h'
      exact .inr (.inl ⟨rfl, hmove⟩)
  | badNext h' hnext =>
      obtain ⟨-, -, rfl⟩ := h.unique h'
      exact .inr (.inr ⟨rfl, hnext⟩)

/-- The faults of an entry have different places in the order. -/
theorem HasFault.eq_of_rank_eq {cause other : TableFault} (h : HasFault count state bit cause)
    (hother : HasFault count state bit other) (hrank : cause.rank = other.rank) :
    cause = other := by
  cases h with
  | missing hnone =>
      cases hother with
      | missing _ => rfl
      | _ => cases hrank
  | notTriple hfound _ =>
      cases hother with
      | notTriple hfound' _ =>
          obtain rfl := Option.some.inj (hfound.symm.trans hfound')
          rfl
      | _ => cases hrank
  | badWrite hfields _ =>
      cases hother with
      | badWrite hfields' _ =>
          obtain ⟨rfl, -, -⟩ := hfields.unique hfields'
          rfl
      | _ => cases hrank
  | badMove hfields _ =>
      cases hother with
      | badMove hfields' _ =>
          obtain ⟨-, rfl, -⟩ := hfields.unique hfields'
          rfl
      | _ => cases hrank
  | badNext hfields _ =>
      cases hother with
      | badNext hfields' _ =>
          obtain ⟨-, -, rfl⟩ := hfields.unique hfields'
          rfl
      | _ => cases hrank

/-- **An entry with a fault spells nothing.** -/
theorem HasFault.not_isSpelled {cause : TableFault} (hfault : HasFault count state bit cause) :
    ¬ IsSpelled count state bit := by
  rintro ⟨write, direction, next, hbit, htarget, move, hfields, hmove⟩
  obtain ⟨-, hnot⟩ | ⟨-, hnot⟩ | ⟨-, hnot⟩ := hfault.of_hasFields hfields
  · exact hnot hbit
  · exact hnot direction hmove
  · exact hnot htarget

/-! ### First faults -/

/-- An entry has only one first fault. -/
theorem IsFirstFault.unique {cause other : TableFault} (h : IsFirstFault count state bit cause)
    (hother : IsFirstFault count state bit other) : cause = other :=
  h.hasFault.eq_of_rank_eq hother.hasFault
    (Nat.le_antisymm (h.rank_le other hother.hasFault) (hother.rank_le cause h.hasFault))

section

variable {write move next : Datum} {direction : Direction}

/-- Without an entry there are no fields to find fault with. -/
theorem IsFirstFault.missing (h : state.index? (.ofBit bit) = none) :
    IsFirstFault count state bit .missing where
  hasFault := .missing h
  rank_le _ _ := Nat.zero_le _

/-- An entry that is not of three fields has no other fault. -/
theorem IsFirstFault.notTriple {found : Datum} (hfound : state.index? (.ofBit bit) = some found)
    (hfields : Instruction.fields? found = none) :
    IsFirstFault count state bit (.notTriple found) where
  hasFault := .notTriple hfound hfields
  rank_le other hother := by
    cases hother with
    | missing hnone => cases hnone.symm.trans hfound
    | _ => simp [TableFault.rank]

/-- What is written is looked at before the other two fields. -/
theorem IsFirstFault.badWrite (h : HasFields state bit write move next) (hwrite : ¬ IsBit write) :
    IsFirstFault count state bit (.badWrite write) where
  hasFault := .badWrite h hwrite
  rank_le other hother := by
    obtain ⟨rfl, -⟩ | ⟨rfl, -⟩ | ⟨rfl, -⟩ := hother.of_hasFields h <;> simp [TableFault.rank]

/-- The direction is looked at before the next state. -/
theorem IsFirstFault.badMove (h : HasFields state bit write move next) (hwrite : IsBit write)
    (hmove : ∀ direction, Direction.ofDatum move ≠ .ok direction) :
    IsFirstFault count state bit (.badMove move) where
  hasFault := .badMove h hmove
  rank_le other hother := by
    obtain ⟨-, hnot⟩ | ⟨rfl, -⟩ | ⟨rfl, -⟩ := hother.of_hasFields h
    · exact absurd hwrite hnot
    · exact Nat.le_refl _
    · simp [TableFault.rank]

/-- The next state is looked at last. -/
theorem IsFirstFault.badNext (h : HasFields state bit write move next) (hwrite : IsBit write)
    (hmove : Direction.ofDatum move = .ok direction) (hnext : ¬ IsTarget count next) :
    IsFirstFault count state bit (.badNext next count) where
  hasFault := .badNext h hnext
  rank_le other hother := by
    obtain ⟨-, hnot⟩ | ⟨-, hnot⟩ | ⟨rfl, -⟩ := hother.of_hasFields h
    · exact absurd hwrite hnot
    · exact absurd hmove (hnot direction)
    · exact Nat.le_refl _

end

/-! ### The check of an entry -/

/-- A field is read as a bit exactly if it can be written. -/
theorem write?_cases (write : Datum) :
    (∃ bit, Instruction.write? write = some bit ∧ IsBit write) ∨
      Instruction.write? write = none ∧ ¬ IsBit write := by
  cases h : Instruction.write? write with
  | some bit =>
      refine .inl ⟨bit, rfl, ?_⟩
      rw [Instruction.eq_of_write? h]
      cases bit with
      | false => exact .inl rfl
      | true => exact .inr rfl
  | none =>
      refine .inr ⟨rfl, ?_⟩
      rintro (rfl | rfl)
      · cases h
      · cases h

/-- A field is read as a direction exactly if it is one or names one. -/
theorem direction?_cases (move : Datum) :
    (∃ direction, Instruction.direction? move = some direction ∧
        Direction.ofDatum move = .ok direction) ∨
      Instruction.direction? move = none ∧
        ∀ direction, Direction.ofDatum move ≠ .ok direction := by
  rw [Direction.ofDatum]
  cases Instruction.direction? move with
  | some direction => exact .inl ⟨direction, rfl, rfl⟩
  | none =>
      refine .inr ⟨rfl, fun direction h => ?_⟩
      cases h

/-- A field is read as a next state exactly if it can come next. -/
theorem next?_cases (count : ℕ) (next : Datum) :
    (∃ target, Instruction.next? count next = some target ∧ IsTarget count next) ∨
      Instruction.next? count next = none ∧ ¬ IsTarget count next := by
  cases next with
  | int n =>
      rw [Instruction.next?]
      split_ifs with hhalt hrange
      · exact .inl ⟨none, rfl, n, rfl, .inl hhalt⟩
      · exact .inl ⟨some n.toNat, rfl, n, rfl, .inr hrange⟩
      · refine .inr ⟨rfl, ?_⟩
        rintro ⟨m, hm, htarget⟩
        cases hm
        exact htarget.elim hhalt hrange
  | _ =>
      refine .inr ⟨rfl, ?_⟩
      rintro ⟨m, hm, -⟩
      cases hm

/-- What the check of an entry has to find: that it spells an instruction, or its first fault. -/
theorem entry_cases (count number : ℕ) (state : Datum) (bit : Bool) :
    (∃ instruction, entry count number state bit = .ok instruction ∧
      Spells count state bit (.ofBit instruction.write) instruction.move
        (.int instruction.nextNumber)) ∨
    ∃ cause, entry count number state bit =
        .error (.undefinedTransition cause (.int number) (.ofBit bit)) ∧
      IsFirstFault count state bit cause := by
  simp only [entry]
  cases hfound : state.index? (.ofBit bit) with
  | none => exact .inr ⟨.missing, rfl, .missing hfound⟩
  | some found =>
      simp only [Instruction.ofDatum]
      cases hfields : Instruction.fields? found with
      | none => exact .inr ⟨.notTriple found, rfl, .notTriple hfound hfields⟩
      | some fields =>
          obtain ⟨write, move, next⟩ := fields
          have h : HasFields state bit write move next := ⟨found, hfound, hfields⟩
          obtain ⟨written, hwrite, hbit⟩ | ⟨hwrite, hbit⟩ := write?_cases write
          · obtain ⟨direction, hmove, hdirection⟩ | ⟨hmove, hdirection⟩ := direction?_cases move
            · obtain ⟨target, hnext, htarget⟩ | ⟨hnext, htarget⟩ := next?_cases count next
              · simp only [hwrite, hmove, hnext]
                refine .inl ⟨⟨written, direction, target⟩, rfl, ?_⟩
                obtain rfl := Instruction.eq_of_write? hwrite
                obtain rfl := Instruction.eq_of_next? hnext
                exact ⟨hbit, htarget, move, h, hdirection⟩
              · simp only [hwrite, hmove, hnext]
                exact .inr ⟨.badNext next count, rfl, .badNext h hbit hdirection htarget⟩
            · simp only [hwrite, hmove]
              exact .inr ⟨.badMove move, rfl, .badMove h hbit hdirection⟩
          · simp only [hwrite]
            exact .inr ⟨.badWrite write, rfl, .badWrite h hbit⟩

/-! ### The check of a state -/

/-- A checked state holds what a datum spells for both bits. -/
def Renders (count : ℕ) (raw : Datum) (state : State) : Prop :=
  ∀ bit, Spells count raw bit (.ofBit (state.instruction bit).write) (state.instruction bit).move
    (.int (state.instruction bit).nextNumber)

/-- What the check of a state has to find: what it spells, or the first fault of the first entry
that has one. -/
theorem ofDatum_cases (count number : ℕ) (raw : Datum) :
    (∃ state, ofDatum count number raw = .ok state ∧ Renders count raw state) ∨
    ∃ bit cause, ofDatum count number raw =
        .error (.undefinedTransition cause (.int number) (.ofBit bit)) ∧
      IsFirstFault count raw bit cause ∧ (bit = true → IsSpelled count raw false) := by
  rw [ofDatum]
  obtain ⟨onZero, hzero, hspells⟩ | ⟨cause, hzero, hfirst⟩ := entry_cases count number raw false
  · obtain ⟨onOne, hone, hspells'⟩ | ⟨cause, hone, hfirst⟩ := entry_cases count number raw true
    · rw [hzero, hone]
      refine .inl ⟨⟨onZero, onOne⟩, rfl, fun bit => ?_⟩
      cases bit with
      | false => exact hspells
      | true => exact hspells'
    · rw [hzero, hone]
      exact .inr ⟨true, cause, rfl, hfirst, fun _ => ⟨_, _, _, hspells⟩⟩
  · rw [hzero]
    exact .inr ⟨false, cause, rfl, hfirst, fun h => absurd h Bool.false_ne_true⟩

end State

namespace Table

open State

/-! ### The check of a table -/

/-- **The first violation** of states in order: every entry before it, in the order of states and
then of bits, spells something, and of its own faults it is looked for first. -/
structure IsFirstViolation (count : ℕ) (states : List Datum) (i : ℕ) (bit : Bool)
    (cause : TableFault) : Prop where
  isFirstFault : ∃ state, states[i]? = some state ∧ IsFirstFault count state bit cause
  isSpelled_before : ∀ j bit' state, states[j]? = some state →
    (j < i ∨ j = i ∧ bit' = false ∧ bit = true) → IsSpelled count state bit'

section

variable {count i : ℕ} {raw : Datum} {rest : List Datum} {bit : Bool} {cause : TableFault}

/-- The first fault of the first state is the first violation. -/
theorem IsFirstViolation.cons_zero (hfirst : IsFirstFault count raw bit cause)
    (hzero : bit = true → IsSpelled count raw false) :
    IsFirstViolation count (raw :: rest) 0 bit cause where
  isFirstFault := ⟨raw, rfl, hfirst⟩
  isSpelled_before := by
    rintro j bit' state hj (hlt | ⟨rfl, rfl, hbit⟩)
    · exact absurd hlt (Nat.not_lt_zero j)
    · obtain rfl : raw = state := Option.some.inj hj
      exact hzero hbit

/-- A state that spells something for both bits puts the first violation off by one. -/
theorem IsFirstViolation.cons_succ (hraw : ∀ bit, IsSpelled count raw bit)
    (h : IsFirstViolation count rest i bit cause) :
    IsFirstViolation count (raw :: rest) (i + 1) bit cause where
  isFirstFault := h.isFirstFault
  isSpelled_before := by
    intro j bit' state hj hbefore
    cases j with
    | zero =>
        obtain rfl : raw = state := Option.some.inj hj
        exact hraw bit'
    | succ j =>
        exact h.isSpelled_before j bit' state hj
          (hbefore.imp Nat.lt_of_succ_lt_succ (And.imp_left Nat.succ.inj))

variable {states : List Datum} {j : ℕ} {bit' : Bool} {cause' : TableFault}

/-- No fault comes before the first violation. -/
theorem IsFirstViolation.not_before {state : Datum}
    (h : IsFirstViolation count states i bit cause) (hstate : states[j]? = some state)
    (hfault : HasFault count state bit' cause') :
    ¬ (j < i ∨ j = i ∧ bit' = false ∧ bit = true) :=
  fun hbefore => hfault.not_isSpelled (h.isSpelled_before j bit' state hstate hbefore)

/-- **There is only one first violation.** -/
theorem IsFirstViolation.unique (h : IsFirstViolation count states i bit cause)
    (h' : IsFirstViolation count states j bit' cause') :
    i = j ∧ bit = bit' ∧ cause = cause' := by
  obtain ⟨state, hstate, hfirst⟩ := h.isFirstFault
  obtain ⟨state', hstate', hfirst'⟩ := h'.isFirstFault
  have hnot := h.not_before hstate' hfirst'.hasFault
  have hnot' := h'.not_before hstate hfirst.hasFault
  obtain rfl : i = j := by omega
  obtain rfl : bit = bit' := by
    cases bit <;> cases bit' <;> simp at hnot hnot' ⊢
  obtain rfl : state = state' := Option.some.inj (hstate.symm.trans hstate')
  exact ⟨rfl, rfl, hfirst.unique hfirst'⟩

end

/-- What the check of the states has to find: what they spell, or the first violation. -/
theorem statesOfData_cases (count number : ℕ) (raws : List Datum) :
    (∃ states, statesOfData count number raws = .ok states ∧
      List.Forall₂ (Renders count) raws states) ∨
    ∃ i bit cause, statesOfData count number raws =
        .error (.undefinedTransition cause (.int (number + i : ℕ)) (.ofBit bit)) ∧
      IsFirstViolation count raws i bit cause := by
  induction raws generalizing number with
  | nil => exact .inl ⟨[], rfl, .nil⟩
  | cons raw rest ih =>
      rw [statesOfData]
      obtain ⟨first, hstate, hrenders⟩ | ⟨bit, cause, hstate, hfirst, hzero⟩ :=
        State.ofDatum_cases count number raw
      · rw [hstate]
        change (∃ states, (statesOfData count (number + 1) rest >>= fun states => _) = _ ∧ _) ∨
          ∃ i bit cause, (statesOfData count (number + 1) rest >>= fun states => _) = _ ∧ _
        obtain ⟨states, hrest, hall⟩ | ⟨i, bit, cause, hrest, hfirst⟩ := ih (number + 1)
        · rw [hrest]
          exact .inl ⟨first :: states, rfl, .cons hrenders hall⟩
        · have hspelled : ∀ bit, IsSpelled count raw bit := fun bit => ⟨_, _, _, hrenders bit⟩
          rw [hrest, Nat.add_right_comm]
          exact .inr ⟨i + 1, bit, cause, rfl, hfirst.cons_succ hspelled⟩
      · rw [hstate]
        exact .inr ⟨0, bit, cause, rfl, .cons_zero hfirst hzero⟩

/-- **A well-formed table** has a state, and each of its states spells something for both bits. -/
def IsWellFormed (states : List Datum) : Prop :=
  states ≠ [] ∧ ∀ state ∈ states, ∀ bit, IsSpelled states.length state bit

/-- A table with a violation is not well-formed. -/
theorem IsFirstViolation.not_isWellFormed {states : List Datum} {i : ℕ} {bit : Bool}
    {cause : TableFault} (h : IsFirstViolation states.length states i bit cause) :
    ¬ IsWellFormed states := by
  rintro ⟨-, hspelled⟩
  obtain ⟨state, hstate, hfirst⟩ := h.isFirstFault
  exact hfirst.hasFault.not_isSpelled (hspelled state (List.mem_of_getElem? hstate) bit)

/-- States that are all rendered are well-formed if there are any. -/
theorem isWellFormed_of_renders {raws : List Datum} {states : List State} (hne : raws ≠ [])
    (h : List.Forall₂ (Renders raws.length) raws states) : IsWellFormed raws := by
  refine ⟨hne, fun raw hraw bit => ?_⟩
  obtain ⟨i, hi, rfl⟩ := List.mem_iff_getElem.mp hraw
  have hi' : i < states.length := h.length_eq ▸ hi
  exact ⟨_, _, _, h.get hi hi' bit⟩

/-- What the check of a table has to find: what the states spell, or that there are none, or the
first violation. -/
theorem ofDatum_cases {raw : Datum} {states : List Datum} (hitems : raw.items? = some states) :
    (∃ table, ofDatum raw = .ok table ∧ IsWellFormed states ∧
      List.Forall₂ (Renders states.length) states table.states) ∨
    ∃ fault, ofDatum raw = .error fault ∧ ¬ IsWellFormed states ∧
      ((states = [] ∧ fault = .undefinedTransition .empty (.int 0) .null) ∨
        ∃ (i : ℕ) (bit : Bool) (cause : TableFault),
          fault = .undefinedTransition cause (.int i) (.ofBit bit) ∧
          IsFirstViolation states.length states i bit cause) := by
  rw [ofDatum, hitems]
  cases states with
  | nil => exact .inr ⟨_, rfl, fun h => h.1 rfl, .inl ⟨rfl, rfl⟩⟩
  | cons raw rest =>
      change (∃ table, (statesOfData (raw :: rest).length 0 (raw :: rest)).map Table.mk = _ ∧ _) ∨
        ∃ fault, (statesOfData (raw :: rest).length 0 (raw :: rest)).map Table.mk = _ ∧ _
      have hne : raw :: rest ≠ [] := List.cons_ne_nil raw rest
      obtain ⟨states, hstates, hall⟩ | ⟨i, bit, cause, hstates, hfirst⟩ :=
        statesOfData_cases (raw :: rest).length 0 (raw :: rest)
      · rw [hstates]
        exact .inl ⟨⟨states⟩, rfl, isWellFormed_of_renders hne hall, hall⟩
      · rw [hstates, Nat.zero_add]
        exact .inr ⟨_, rfl, hfirst.not_isWellFormed, .inr ⟨i, bit, cause, rfl, hfirst⟩⟩

/-- The check of a table ends with the first violation. -/
theorem ofDatum_of_isFirstViolation {raw : Datum} {states : List Datum}
    (hitems : raw.items? = some states) {i : ℕ} {bit : Bool} {cause : TableFault}
    (h : IsFirstViolation states.length states i bit cause) :
    ofDatum raw = .error (.undefinedTransition cause (.int i) (.ofBit bit)) := by
  obtain ⟨table, -, hwell, -⟩ | ⟨fault, hcheck, -, hfault⟩ := ofDatum_cases hitems
  · exact absurd hwell h.not_isWellFormed
  · obtain ⟨rfl, -⟩ | ⟨j, bit', cause', rfl, hfirst⟩ := hfault
    · obtain ⟨state, hstate, -⟩ := h.isFirstFault
      cases hstate
    · obtain ⟨rfl, rfl, rfl⟩ := h.unique hfirst
      exact hcheck

/-- An entry with a fault keeps a table from passing the check, which ends at this entry or at one
before it. -/
theorem exists_ofDatum_of_hasFault {raw : Datum} {states : List Datum}
    (hitems : raw.items? = some states) {i : ℕ} {bit : Bool} {state : Datum} {cause : TableFault}
    (hstate : states[i]? = some state) (hfault : HasFault states.length state bit cause) :
    ∃ (j : ℕ) (bit' : Bool) (cause' : TableFault),
      ofDatum raw = .error (.undefinedTransition cause' (.int j) (.ofBit bit')) ∧
      (j < i ∨ j = i ∧ (bit' = true → bit = true)) := by
  obtain ⟨table, -, ⟨-, hspelled⟩, -⟩ | ⟨fault, hcheck, -, hcauses⟩ := ofDatum_cases hitems
  · exact absurd (hspelled state (List.mem_of_getElem? hstate) bit) hfault.not_isSpelled
  · obtain ⟨rfl, -⟩ | ⟨j, bit', cause', rfl, hfirst⟩ := hcauses
    · cases hstate
    · refine ⟨j, bit', cause', hcheck, ?_⟩
      have hnot := hfirst.not_before hstate hfault
      obtain hlt | rfl | hgt := Nat.lt_trichotomy i j
      · exact absurd (.inl hlt) hnot
      · refine .inr ⟨rfl, fun hbit' => ?_⟩
        by_contra hbit
        exact hnot (.inr ⟨rfl, Bool.eq_false_iff.mpr hbit, hbit'⟩)
      · exact .inl hgt

/-- **The check of a table, exactly.** A tuple or a list of states passes the check if and only if
it is well-formed. Then the normal form is a tuple of as many dictionaries with the keys zero and
one in this order, and under each key stands the transition that the state spells for the bit; the
normal form passes the check again unchanged, and where it is given for a table it is taken as it
is. In every other case the fault is that there are no states, with the first state and no bit, or
it is the first violation, with its state and its bit. -/
theorem ofDatum_exact {raw : Datum} {states : List Datum}
    (hraw : raw = .tuple states ∨ raw = .list states) :
    let checked := (ofDatum raw).map toDatum
    ((∃ normal, checked = .ok normal) ↔ IsWellFormed states) ∧
    (∀ normal, checked = .ok normal →
      (∃ dicts, normal = .tuple dicts ∧
        List.Forall₂ (fun state dict => ∃ entries : Bool → Datum,
          dict = .dict [(.int 0, entries false), (.int 1, entries true)] ∧
          ∀ bit, ∃ write direction next, Spells states.length state bit write direction next ∧
            entries bit = .transition write (.direction direction) next) states dicts) ∧
      (ofDatum normal).map toDatum = .ok normal ∧
      isLiteral normal = true ∧ ofLiteral normal = .ok normal) ∧
    (¬ IsWellFormed states →
      (states = [] ∧ checked = .error (.undefinedTransition .empty (.int 0) .null)) ∨
      ∃ (i : ℕ) (bit : Bool) (cause : TableFault),
        checked = .error (.undefinedTransition cause (.int i) (.ofBit bit)) ∧
        IsFirstViolation states.length states i bit cause) := by
  intro checked
  have hitems : raw.items? = some states := by
    obtain rfl | rfl := hraw
    · rfl
    · rfl
  obtain ⟨table, hcheck, hwell, hall⟩ | ⟨fault, hcheck, hnot, hfault⟩ := ofDatum_cases hitems
  · have hok : checked = .ok table.toDatum := congrArg (Except.map toDatum) hcheck
    refine ⟨⟨fun _ => hwell, fun _ => ⟨_, hok⟩⟩, ?_, fun hnot => absurd hwell hnot⟩
    intro normal hnormal
    obtain rfl : table.toDatum = normal := Except.ok.inj (hok.symm.trans hnormal)
    refine ⟨⟨_, rfl, List.forall₂_map_right_iff.mpr (hall.imp fun state rendered h => ?_)⟩, ?_,
      table.isLiteral_toDatum, table.ofLiteral_toDatum⟩
    · exact ⟨fun bit => (rendered.instruction bit).toTransition.toDatum, rfl,
        fun bit => ⟨_, _, _, h bit, rfl⟩⟩
    · rw [ofDatum_toDatum (isClosed_of_ofDatum hcheck) (states_ne_nil_of_ofDatum hcheck)]
      rfl
  · have herror : checked = .error fault := congrArg (Except.map toDatum) hcheck
    have hnone : ∀ normal, checked ≠ .ok normal := by
      intro normal hnormal
      cases herror.symm.trans hnormal
    refine ⟨⟨fun ⟨normal, hnormal⟩ => absurd hnormal (hnone normal), fun h => absurd h hnot⟩,
      fun normal hnormal => absurd hnormal (hnone normal), fun _ => ?_⟩
    obtain ⟨hnil, rfl⟩ | ⟨i, bit, cause, rfl, hfirst⟩ := hfault
    · exact .inl ⟨hnil, herror⟩
    · exact .inr ⟨i, bit, cause, herror, hfirst⟩

/-- A state as it may be given: a dictionary with a truth value for a key, a transition that names
its direction, and a triple. -/
def looseState : Datum :=
  .dict [(.bool true, .transition (.int 0) (.text "left ") (.int haltState)),
    (.int 0, .tuple [.int 1, .text "R", .int 1])]

/-- That state and a pair of triples, one of them a list. -/
def looseStates : List Datum := [
  looseState,
  .tuple [.list [.int 1, .direction .left, .int 0], .tuple [.int 1, .text "right", .int haltState]]]

/-- That state, a pair whose second triple moves in no direction and goes on to a state that there
is not, and something that is no state. -/
def faultyStates : List Datum := [
  looseState,
  .tuple [.list [.int 1, .direction .left, .int 0], .tuple [.int 1, .text "up", .int 7]],
  .null]

/-- The loose states pass the check, and their normal form passes it unchanged. In the faulty states
the check finds what is wrong with the direction. -/
theorem ofDatum_exact_loose_faulty :
    (Datum.list looseStates = .tuple looseStates ∨ Datum.list looseStates = .list looseStates) ∧
    IsWellFormed looseStates ∧
    (∃ normal, (ofDatum (.list looseStates)).map toDatum = .ok normal ∧
      (ofDatum normal).map toDatum = .ok normal ∧ ofLiteral normal = .ok normal) ∧
    (Datum.tuple faultyStates = .tuple faultyStates ∨
      Datum.tuple faultyStates = .list faultyStates) ∧
    ¬ IsWellFormed faultyStates ∧
    (ofDatum (.tuple faultyStates)).map toDatum =
      .error (.undefinedTransition (.badMove (.text "up")) (.int 1) (.int 1)) ∧
    IsFirstViolation 3 faultyStates 1 true (.badMove (.text "up")) := by
  have hlist : Datum.list looseStates = .tuple looseStates ∨
      Datum.list looseStates = .list looseStates := .inr rfl
  have htuple : Datum.tuple faultyStates = .tuple faultyStates ∨
      Datum.tuple faultyStates = .list faultyStates := .inl rfl
  obtain ⟨hloose, hnormal, -⟩ := ofDatum_exact hlist
  obtain ⟨hpasses, -, hfaulty⟩ := ofDatum_exact htuple
  obtain ⟨normal, hok⟩ : ∃ normal, (ofDatum (.list looseStates)).map toDatum = .ok normal :=
    ⟨_, rfl⟩
  obtain ⟨-, hagain, -, hliteral⟩ := hnormal normal hok
  have herror : (ofDatum (.tuple faultyStates)).map toDatum =
      .error (.undefinedTransition (.badMove (.text "up")) (.int 1) (.int 1)) := rfl
  have hnot : ¬ IsWellFormed faultyStates := by
    intro hwell
    obtain ⟨found, hfound⟩ := hpasses.mpr hwell
    cases herror.symm.trans hfound
  refine ⟨hlist, hloose.mp ⟨_, hok⟩, ⟨normal, hok, hagain, hliteral⟩, htuple, hnot, herror, ?_⟩
  obtain ⟨hnil, -⟩ | ⟨i, bit, cause, hfirst, hviolation⟩ := hfaulty hnot
  · cases hnil
  · cases bit with
    | false => cases herror.symm.trans hfirst
    | true =>
        cases herror.symm.trans hfirst
        exact hviolation

end Table

end Metered
