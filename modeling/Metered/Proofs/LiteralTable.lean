import Metered.Proofs.Agreement
import Metered.Proofs.Soundness

/-!
# Tables Taken as They Are

A table that consists of dictionaries of transitions is taken as it is, and any other table is
put in normal form first. For a table that passes its check the shortcut leaves one thing
undone. The check reads a direction also from a text, but a transition that still has a text
for its move goes to the right, whatever the text says. So the shortcut is right unless a text
names the left, and then it is wrong.

## Main results

* `Table.lookup_of_isLiteral`: what a table that is taken as it is holds, if it passes its check;
* `Table.movesAs_of_isLiteral`: it makes the transitions of its normal form, unless a text names
  the left;
* `Table.NamesLeft.moves_right`: where a text names the left, the head moves to the right;
* `Machine.literal_agrees`: exactly where no text names the left does a table make the
  transitions of its normal form, and then its runs are those of the normal form and of the
  machine.
-/

open Metered.Derivation

namespace Metered

/-! ### Headings -/

/-- A transition moves the head in the direction that its field is checked for, unless the field
is a text that names the left. -/
theorem Transition.heading_eq {entry : Transition} {direction : Direction}
    (h : Instruction.direction? entry.move = some direction)
    (htext : ∀ word, entry.move = .text word → Direction.ofWord? word ≠ some .left) :
    entry.heading = direction := by
  obtain ⟨write, move, next⟩ := entry
  cases move with
  | direction given =>
      obtain rfl : given = direction := Option.some.inj h
      cases given <;> rfl
  | text word =>
      have hword : Direction.ofWord? word = some direction := h
      cases direction with
      | left => exact absurd hword (htext word rfl)
      | right => rfl
  | _ => cases h

namespace Table

variable {raw : Datum} {table : Table}

/-! ### Entries -/

/-- A table that is taken as it is has an entry whose move is a text that names the left. -/
def NamesLeft (raw : Datum) : Prop :=
  isLiteral raw = true ∧ ∃ (s : ℕ) (bit : Bool) (entry : Transition) (word : String),
    lookup raw (.int s) (.ofBit bit) = .ok entry ∧ entry.move = .text word ∧
      Direction.ofWord? word = some .left

/-- Whatever a dictionary of transitions holds is a transition. -/
theorem exists_of_isTransitionDict {state cell found : Datum} (h : isTransitionDict state = true)
    (hfound : state.index? cell = some found) :
    ∃ write move next, found = .transition write move next := by
  cases state with
  | dict entries =>
      obtain ⟨entry, hentry, rfl⟩ := Option.map_eq_some_iff.mp hfound
      have htransition : isTransition entry.2 = true :=
        List.all_eq_true.mp h entry (List.mem_of_find?_eq_some hentry)
      cases hvalue : entry.2 with
      | transition write move next => exact ⟨write, move, next, rfl⟩
      | _ =>
          rw [hvalue] at htransition
          cases htransition
  | _ => cases h

/-- A table that is taken as it is and passes its check is a tuple of dictionaries of transitions,
each of which is a checked state. -/
theorem exists_of_isLiteral (h : ofDatum raw = .ok table) (hliteral : isLiteral raw = true) :
    ∃ states, raw = .tuple states ∧ (∀ state ∈ states, isTransitionDict state = true) ∧
      List.Forall₂
        (fun raw state => ∃ number, State.ofDatum states.length number raw = .ok state)
        states table.states := by
  obtain ⟨raws, hitems, -, hstates⟩ := exists_of_ofDatum h
  cases raw with
  | tuple states =>
      obtain rfl : states = raws := Option.some.inj hitems
      exact ⟨states, rfl, List.all_eq_true.mp hliteral, hstates⟩
  | _ => cases hliteral

/-- **Look-ups in a table that is taken as it is.** If it passes its check, they find what it
writes and where it goes on as its normal form has them, and a move in any form that the check
reads. -/
theorem lookup_of_isLiteral (h : ofDatum raw = .ok table) (hliteral : isLiteral raw = true)
    {s : ℕ} (hs : s < table.states.length) (bit : Bool) :
    ∃ move, Instruction.direction? move = some (table.states[s].instruction bit).move ∧
      lookup raw (.int s) (.ofBit bit) = .ok { (table.states[s].instruction bit).toTransition with
        move := move } := by
  obtain ⟨states, rfl, hdicts, hstates⟩ := exists_of_isLiteral h hliteral
  have hs' : s < states.length := hstates.length_eq ▸ hs
  obtain ⟨number, hchecked⟩ :
      ∃ number, State.ofDatum states.length number states[s] = .ok table.states[s] :=
    hstates.get hs' hs
  obtain ⟨found, hfound, hentry⟩ := State.exists_of_ofDatum hchecked bit
  obtain ⟨write, move, next, rfl⟩ :=
    exists_of_isTransitionDict (hdicts _ (List.getElem_mem hs')) hfound
  obtain ⟨rfl, hmove, rfl⟩ := Instruction.fields_of_ofDatum hentry
  have hrange : (0 : ℤ) ≤ s ∧ (s : ℤ) < states.length :=
    ⟨Int.natCast_nonneg s, Int.ofNat_lt.mpr hs'⟩
  refine ⟨move, hmove, ?_⟩
  rw [lookup_int, if_pos hrange, entryAt, index?_tuple hs', Option.bind_some, hfound]
  rfl

/-- A look-up from a natural number in a table that is taken as it is succeeds only for one of
its states. -/
theorem lt_of_lookup (h : ofDatum raw = .ok table) (hliteral : isLiteral raw = true) {s : ℕ}
    {cell : Datum} {entry : Transition} (hentry : lookup raw (.int s) cell = .ok entry) :
    s < table.states.length := by
  obtain ⟨states, rfl, -, hstates⟩ := exists_of_isLiteral h hliteral
  rw [lookup_int] at hentry
  split_ifs at hentry with hrange
  rw [← hstates.length_eq]
  exact Int.ofNat_lt.mp hrange.2

/-! ### Transitions -/

/-- A table that is ready for look-ups moves as a checked table says if it makes the transitions
of the normal form from every state of that table and every bit under the head. -/
def MovesAs (literal : Datum) (table : Table) : Prop :=
  ∀ (s : ℕ) (bit : Bool) (tape : Tape Datum), s < table.states.length → tape.head = .ofBit bit →
    next literal (.recorded tape) (.int s) = next table.toDatum (.recorded tape) (.int s)

/-- **A table that is taken as it is moves as it says** if it passes its check and no text names
the left. -/
theorem movesAs_of_isLiteral (h : ofDatum raw = .ok table) (hliteral : isLiteral raw = true)
    (hnames : ¬ NamesLeft raw) : MovesAs raw table := by
  intro s bit tape hs hbit
  obtain ⟨move, hmove, hlookup⟩ := lookup_of_isLiteral h hliteral hs bit
  rw [next_recorded, next_recorded, hbit, hlookup, lookup_toDatum hs]
  have htext : ∀ word, move = .text word → Direction.ofWord? word ≠ some .left := by
    intro word hword hleft
    exact hnames ⟨hliteral, s, bit, _, word, hlookup, hword, hleft⟩
  generalize table.states[s].instruction bit = instruction at hmove hlookup
  have hheading : Transition.heading { instruction.toTransition with move := move } =
      instruction.toTransition.heading := by
    rw [Transition.heading_eq hmove htext, instruction.heading_toTransition]
  simp only [Except.map, Transition.apply, hheading]

/-- **A text that names the left does not move the head to the left.** Where a table that is
taken as it is has one, its transition goes to the right, and that of its normal form to the
left. -/
theorem NamesLeft.moves_right (h : ofDatum raw = .ok table) (hnames : NamesLeft raw) :
    ∃ (s : ℕ) (bit : Bool) (write next : Datum), s < table.states.length ∧
      ∀ tape : Tape Datum, tape.head = .ofBit bit →
        transition raw (.recorded tape) (.int s) =
          .ok (.recorded (tape.moveRight write), next) ∧
        transition table.toDatum (.recorded tape) (.int s) =
          .ok (.recorded (tape.moveLeft write), next) := by
  obtain ⟨hliteral, s, bit, entry, word, hentry, htext, hleft⟩ := hnames
  have hs : s < table.states.length := lt_of_lookup h hliteral hentry
  obtain ⟨move, hmove, hlookup⟩ := lookup_of_isLiteral h hliteral hs bit
  have hlookup' := lookup_toDatum hs bit
  generalize table.states[s].instruction bit = instruction at hmove hlookup hlookup'
  obtain rfl := Except.ok.inj (hentry.symm.trans hlookup)
  obtain rfl : move = .text word := htext
  have hheading : instruction.toTransition.heading = .left := by
    rw [instruction.heading_toTransition]
    exact Option.some.inj (hmove.symm.trans hleft)
  refine ⟨s, bit, .ofBit instruction.write, .int instruction.nextNumber, hs, ?_⟩
  intro tape hbit
  have hready : ofLiteral raw = .ok raw := if_pos hliteral
  constructor
  · rw [transition, hready]
    change next raw (.recorded tape) (.int s) = _
    rw [next_recorded, hbit, hlookup]
    rfl
  · rw [transition, ofLiteral_toDatum]
    change next table.toDatum (.recorded tape) (.int s) = _
    rw [next_recorded, hbit, hlookup', Except.map, Transition.apply, hheading]
    rfl

/-- A table that passes its check moves as it says once it is ready for look-ups, unless it is
taken as it is and a text in it names the left. -/
theorem exists_ofLiteral (h : ofDatum raw = .ok table) (hnames : ¬ NamesLeft raw) :
    ∃ literal, ofLiteral raw = .ok literal ∧ MovesAs literal table := by
  cases hliteral : isLiteral raw with
  | true => exact ⟨raw, if_pos hliteral, movesAs_of_isLiteral h hliteral hnames⟩
  | false =>
      refine ⟨table.toDatum, ?_, fun _ _ _ _ _ => rfl⟩
      rw [ofLiteral, hliteral, h]
      rfl

end Table

namespace Machine

variable {machine : Machine} {table : Table} {literal : Datum}

/-! ### Runs -/

/-- A table that moves as a checked table says runs from a well-formed machine as the normal form
of that table does. -/
theorem IsWellFormed.runWithin_eq (h : machine.IsWellFormed table) (hclosed : table.IsClosed)
    (hmoves : Table.MovesAs literal table) (bound : ℕ) :
    Table.runWithin literal bound (.recorded machine.tape) machine.state =
      Table.runWithin table.toDatum bound (.recorded machine.tape) machine.state := by
  induction bound generalizing machine with
  | zero => rfl
  | succ bound ih =>
      rw [Table.runWithin, Table.runWithin]
      cases hhalted : isHalt machine.state with
      | true => rfl
      | false =>
          obtain ⟨s, bit, hs, hstate, hbit⟩ := h.exists_state hhalted
          obtain ⟨state, hmem, bit', hadvance⟩ := h.advance hhalted
          have hprepared : machine.IsPrepared table := ⟨h.table_eq, s, hstate⟩
          have hmade := hprepared.next_eq
          rw [hadvance, hstate] at hmade
          rw [hstate, hmoves s bit _ hs hbit, hmade]
          have hrest := ih (h.apply (hclosed state hmem bit'))
          exact congrArg (fun rest => burn 1 >>= fun _ => rest) hrest

/-- So do whole runs on tanks. -/
theorem IsWellFormed.drive_eq (h : machine.IsWellFormed table) (hclosed : table.IsClosed)
    (hmoves : Table.MovesAs literal table) :
    Table.drive literal (.recorded machine.tape) machine.state =
      Table.drive table.toDatum (.recorded machine.tape) machine.state := by
  have hruns := fun tank : Tank => h.runWithin_eq hclosed hmoves tank.capacity
  exact congrArg (fun rest : Tank → Derivation AnyTape => get >>= rest) (funext hruns)

/-- **When the shortcut is right.** Let a table pass its check. Some transition on a tape of
bits, from a state of the table, differs from that of its normal form if and only if the table
is taken as it is and a text in it names the left. If that is not so, every run on a tape of
bits, from a state of the table or from the halt, does on every tank what the run of the normal
form does. Then it has the outcome of a run of the machine of the table, and draws a unit for
each transition of the machine, and one more unless the machine comes to the halt. -/
theorem literal_agrees {raw : Datum} (h : Table.ofDatum raw = .ok table) :
    (Table.NamesLeft raw ↔ ∃ (tape : Tape Bool) (s : ℕ), s < table.states.length ∧
      Table.transition raw (.recorded (tape.map .ofBit)) (.int s) ≠
        Table.transition table.toDatum (.recorded (tape.map .ofBit)) (.int s)) ∧
    (¬ Table.NamesLeft raw → ∀ (tape : Tape Bool) (state : Option ℕ),
      (∀ s ∈ state, s < table.states.length) →
      let query := fun raw =>
        (Query.run raw (tape.map .ofBit).toDatum (.int (stateNumber state))).derive
      (∀ tank, (query raw).runOn tank = (query table.toDatum).runOn tank) ∧
      ∃ machine,
        ofData raw (tape.map .ofBit).toDatum (.int (stateNumber state)) = .ok machine ∧
        ∀ (limit : ℕ) (verbose : Bool),
          let outcome := machine.run (.int limit) verbose
          (query raw).runOn (.whole limit Table.runPurpose 0) =
            (outcome.result.map Tape.toDatum, .whole limit Table.runPurpose
              (outcome.machine.steps + if outcome.machine.halted then 0 else 1))) := by
  refine ⟨⟨fun hnames => ?_, fun hdiffers => ?_⟩, fun hnames tape state hstate => ?_⟩
  · obtain ⟨s, bit, write, next, hs, hmoves⟩ := hnames.moves_right h
    refine ⟨⟨[], bit, []⟩, s, hs, ?_⟩
    obtain ⟨hright, hleft⟩ := hmoves ⟨[], .ofBit bit, []⟩ rfl
    intro hequal
    cases hright.symm.trans (hequal.trans hleft)
  · by_contra hnames
    obtain ⟨tape, s, hs, hne⟩ := hdiffers
    obtain ⟨literal, hready, hmoves⟩ := Table.exists_ofLiteral h hnames
    apply hne
    rw [Table.transition, Table.transition, hready, table.ofLiteral_toDatum]
    exact hmoves s tape.head _ hs rfl
  · obtain ⟨literal, hready, hmoves⟩ := Table.exists_ofLiteral h hnames
    have hclosed := Table.isClosed_of_ofDatum h
    have hdrive : Table.drive literal (.recorded (tape.map .ofBit)) (.int (stateNumber state)) =
        Table.drive table.toDatum (.recorded (tape.map .ofBit)) (.int (stateNumber state)) :=
      (isWellFormed_start hstate tape).drive_eq hclosed hmoves
    have hdrawn : ∀ tank,
        (Query.run raw (tape.map .ofBit).toDatum (.int (stateNumber state))).derive.runOn tank =
          (Query.run table.toDatum (tape.map .ofBit).toDatum
            (.int (stateNumber state))).derive.runOn tank := by
      intro tank
      rw [runOn_derive_run hready, runOn_derive_run table.ofLiteral_toDatum, hdrive]
    refine ⟨hdrawn, _, ofData_eq_start h _ _, fun limit verbose => ?_⟩
    have hprepared := isPrepared_start table (tape.map .ofBit) (stateNumber state)
    intro outcome
    rw [hdrawn]
    exact hprepared.runOn_derive_eq_run rfl limit verbose

/-- A table of two states in several forms: its states are a dictionary and a pair, its entries
transitions and triples, and its directions words and a direction. It is put in normal form,
since it is a list. -/
def mixture : Datum :=
  .list [
    .dict [(.int 0, .transition (.int 1) (.text " left ") (.int 1)),
      (.int 1, BusyBeaver.entry 1 "R" haltState)],
    .tuple [BusyBeaver.entry 1 "r" 0,
      .transition (.int 0) (.direction .right) (.int haltState)]]

/-- The mixture, checked. -/
def mixtureTable : Table where
  states := [⟨⟨true, .left, some 1⟩, ⟨true, .right, none⟩⟩,
    ⟨⟨true, .right, some 0⟩, ⟨false, .right, none⟩⟩]

/-- The mixture makes the transitions of its normal form although a text in it names the left,
and halts with the last of three units. -/
theorem mixture_agrees :
    Table.ofDatum mixture = .ok mixtureTable ∧ ¬ Table.NamesLeft mixture ∧
    (∀ s ∈ some 0, s < mixtureTable.states.length) ∧
    let query := fun raw =>
      (Query.run raw ((Tape.mk [] false [true]).map .ofBit).toDatum (.int 0)).derive
    (∀ tank, (query mixture).runOn tank = (query mixtureTable.toDatum).runOn tank) ∧
    ∃ machine,
      ofData mixture ((Tape.mk [] false [true]).map .ofBit).toDatum (.int 0) = .ok machine ∧
      let outcome := machine.run (.int 3) false
      (query mixture).runOn (.whole 3 Table.runPurpose 0) =
        (outcome.result.map Tape.toDatum, .whole 3 Table.runPurpose
          (outcome.machine.steps + if outcome.machine.halted then 0 else 1)) := by
  have hchecked : Table.ofDatum mixture = .ok mixtureTable := rfl
  have hnames : ¬ Table.NamesLeft mixture := fun h => Bool.false_ne_true h.1
  have hstate : ∀ s ∈ some 0, s < mixtureTable.states.length := by decide
  obtain ⟨-, hagrees⟩ := literal_agrees hchecked
  obtain ⟨hdrawn, machine, hmachine, hruns⟩ := hagrees hnames ⟨[], false, [true]⟩ (some 0) hstate
  exact ⟨hchecked, hnames, hstate, hdrawn, machine, hmachine, hruns 3 false⟩

/-- The table of one state that writes a one and halts, with transitions that name the left by a
text. -/
def leftInWords : Datum :=
  .tuple [BusyBeaver.state (.transition (.int 1) (.text "L") (.int haltState))
    (.transition (.int 1) (.text "L") (.int haltState))]

/-- That table, checked: its instructions go to the left. -/
def leftInWordsTable : Table where
  states := [⟨⟨true, .left, none⟩, ⟨true, .left, none⟩⟩]

/-- On the blank tape the table that is taken as it is goes to the right, by a transition and by
a run, and its normal form to the left, as the machine does. -/
theorem leftInWords_disagrees :
    Table.ofDatum leftInWords = .ok leftInWordsTable ∧
    Table.transition leftInWords (.recorded Tape.blank) (.int 0) =
      .ok (.recorded ⟨[.int 1], .int 0, []⟩, .int haltState) ∧
    Table.transition leftInWordsTable.toDatum (.recorded Tape.blank) (.int 0) =
      .ok (.recorded ⟨[], .int 0, [.int 1]⟩, .int haltState) ∧
    ((Query.run leftInWords Tape.blank.toDatum (.int 0)).derive.runOn
        (.whole 1 Table.runPurpose 0)).1 =
      .ok (Tape.toDatum ⟨[.int 1], .int 0, []⟩) ∧
    ((Query.run leftInWordsTable.toDatum Tape.blank.toDatum (.int 0)).derive.runOn
        (.whole 1 Table.runPurpose 0)).1 =
      .ok (Tape.toDatum ⟨[], .int 0, [.int 1]⟩) ∧
    runBlank leftInWords (.int 1) = .ok ⟨[], .int 0, [.int 1]⟩ :=
  ⟨rfl, rfl, rfl, rfl, rfl, rfl⟩

end Machine

end Metered
