import Mathlib.Data.List.Nodup
import Metered.Proofs.Agreement

/-!
# Tables with Holes

A table that is written by hand in the form of normal tables is taken as it is, though states of
it may lack an entry for a bit, and transitions may lead out of it. Such a **hole** does no harm
as long as a run does not come to it, and then it does so at once: before each transition a run
draws a unit and looks up the entry, and the look-up fails at the first configuration that has
none.

What a run comes to is said by the inductive relation `Reaches`, which knows neither look-ups
nor tanks but only which entries there are. It is closed under adding entries
(`Reaches.extend`), so that nothing which stands in a hole changes a run that does not come to
it.

## Main results

* `lookup_of_hasEntry`, `lookup_of_not_hasEntry`: look-ups find the entries that there are;
* `Reaches.unique`, `exists_reaches`: a run comes to the halt, to a hole, or goes on;
* `runOn_of_reaches`: a run on a tank from what it comes to;
* `holes_matter_when_reached`: only a hole that a run comes to makes a difference.
-/

open Metered.Derivation

namespace Metered

/-! ### Partial tables -/

/-- An entry with an integer for the next state; nothing else about it has been checked. -/
structure PartialEntry where
  write : Datum
  move : Datum
  next : ℤ

/-- The transition of such an entry. -/
def PartialEntry.toTransition (entry : PartialEntry) : Transition :=
  ⟨entry.write, entry.move, .int entry.next⟩

/-- A state with at most one entry for each bit, in any order. -/
structure PartialState where
  entries : List (Bool × PartialEntry)
  nodup : (entries.map Prod.fst).Nodup

/-- The dictionary of such a state. -/
def PartialState.toDatum (state : PartialState) : Datum :=
  .dict (state.entries.map fun entry => (.ofBit entry.1, entry.2.toTransition.toDatum))

/-- A table that is written by hand, as a tuple of dictionaries of transitions. -/
structure PartialTable where
  states : List PartialState

namespace PartialTable

variable {table large : PartialTable} {state : ℤ} {cell : Datum} {entry entry' : PartialEntry}

/-- The datum of such a table. -/
def toDatum (table : PartialTable) : Datum :=
  .tuple (table.states.map PartialState.toDatum)

/-- **The entries of a table**: the state must be the number of one of its states, and the cell
must equal the bit that the entry is for. -/
def HasEntry (table : PartialTable) (state : ℤ) (cell : Datum) (entry : PartialEntry) : Prop :=
  ∃ (s : ℕ) (found : PartialState) (bit : Bool), state = s ∧ table.states[s]? = some found ∧
    cell.bit? = some bit ∧ (bit, entry) ∈ found.entries

/-- A state before the halt and a cell are a hole of a table that has no entry for them. -/
def IsHole (table : PartialTable) (state : ℤ) (cell : Datum) : Prop :=
  state ≠ haltState ∧ ∀ entry, ¬ table.HasEntry state cell entry

/-- A table extends another one if it has all of its states, perhaps more, and all of their
entries unchanged. -/
def Extends (large small : PartialTable) : Prop :=
  ∀ (s : ℕ) (found : PartialState), small.states[s]? = some found →
    ∃ found', large.states[s]? = some found' ∧ ∀ entry ∈ found.entries, entry ∈ found'.entries

/-- A table has one entry at most for a state and a cell. -/
theorem HasEntry.unique (h : table.HasEntry state cell entry)
    (h' : table.HasEntry state cell entry') : entry = entry' := by
  obtain ⟨s, found, bit, rfl, hfound, hbit, hmem⟩ := h
  obtain ⟨s', found', bit', hs, hfound', hbit', hmem'⟩ := h'
  obtain rfl : s = s' := Int.ofNat_inj.mp hs
  obtain rfl : found = found' := Option.some.inj (hfound.symm.trans hfound')
  obtain rfl : bit = bit' := Option.some.inj (hbit.symm.trans hbit')
  exact congrArg Prod.snd (List.inj_on_of_nodup_map found.nodup hmem hmem' rfl)

/-- An extension has the entries of the table that it extends. -/
theorem HasEntry.extend (hextends : large.Extends table)
    (h : table.HasEntry state cell entry) : large.HasEntry state cell entry := by
  obtain ⟨s, found, bit, rfl, hfound, hbit, hmem⟩ := h
  obtain ⟨found', hfound', hkept⟩ := hextends s found hfound
  exact ⟨s, found', bit, rfl, hfound', hbit, hkept _ hmem⟩

/-! ### Look-ups -/

/-- The entry of a state for a cell is the one whose bit the cell equals. -/
theorem index?_toDatum (found : PartialState) (cell : Datum) :
    found.toDatum.index? cell =
      (found.entries.find? fun entry => decide (cell.bit? = some entry.1)).map fun entry =>
        entry.2.toTransition.toDatum := by
  change Datum.lookup? (found.entries.map _) cell = _
  rw [Datum.lookup?, List.find?_map, Option.map_map]
  have hkeys : ((fun entry : Datum × Datum => Datum.equals entry.1 cell) ∘
      fun entry : Bool × PartialEntry => (Datum.ofBit entry.1, entry.2.toTransition.toDatum)) =
      fun entry => decide (cell.bit? = some entry.1) :=
    funext fun entry => Table.equals_ofBit entry.1 cell
  rw [hkeys]
  rfl

/-- A table is taken as it is, whatever its holes are. -/
theorem ofLiteral_toDatum (table : PartialTable) :
    Table.ofLiteral table.toDatum = .ok table.toDatum := by
  refine if_pos (List.all_eq_true.mpr fun raw hraw => ?_)
  obtain ⟨found, -, rfl⟩ := List.mem_map.mp hraw
  refine List.all_eq_true.mpr fun pair hpair => ?_
  obtain ⟨entry, -, rfl⟩ := List.mem_map.mp hpair
  rfl

/-- **Look-ups.** A look-up finds an entry of the table, or there is none and the fault names the
state and the cell. A number below zero is the number of no state, not even of one counted from
the end. -/
theorem lookup_cases (table : PartialTable) (state : ℤ) (cell : Datum) :
    (∃ entry, table.HasEntry state cell entry ∧
      Table.lookup table.toDatum (.int state) cell = .ok entry.toTransition) ∨
    ((∀ entry, ¬ table.HasEntry state cell entry) ∧
      ∃ cause, Table.lookup table.toDatum (.int state) cell =
        .error (.undefinedTransition cause (.int state) cell)) := by
  rw [toDatum, Table.lookup_int, List.length_map]
  by_cases hrange : 0 ≤ state ∧ state < table.states.length
  · obtain ⟨s, rfl⟩ := Int.eq_ofNat_of_zero_le hrange.1
    have hs : s < table.states.length := Int.ofNat_lt.mp hrange.2
    have hs' : s < (table.states.map PartialState.toDatum).length := by rwa [List.length_map]
    have hstate : table.states[s]? = some table.states[s] := List.getElem?_eq_getElem hs
    rw [if_pos hrange, Table.entryAt, Table.index?_tuple hs', Option.bind_some, List.getElem_map,
      index?_toDatum]
    cases hfind : table.states[s].entries.find? fun entry => decide (cell.bit? = some entry.1) with
    | some pair =>
        have hequal := List.find?_some hfind
        have hmem := List.mem_of_find?_eq_some hfind
        exact .inl ⟨pair.2, ⟨s, _, pair.1, rfl, hstate, of_decide_eq_true hequal, hmem⟩, rfl⟩
    | none =>
        refine .inr ⟨?_, .missing, rfl⟩
        rintro entry ⟨s', found, bit, hstate', hfound, hbit, hmem⟩
        obtain rfl : s = s' := Int.ofNat_inj.mp hstate'
        obtain rfl : table.states[s] = found := Option.some.inj (hstate.symm.trans hfound)
        exact List.find?_eq_none.mp hfind _ hmem (decide_eq_true hbit)
  · rw [if_neg hrange]
    refine .inr ⟨?_, .outside, rfl⟩
    rintro entry ⟨s, found, -, rfl, hfound, -⟩
    obtain ⟨hs, -⟩ := List.getElem?_eq_some_iff.mp hfound
    exact hrange ⟨Int.natCast_nonneg s, Int.ofNat_lt.mpr hs⟩

/-- A look-up finds the entry that there is. -/
theorem lookup_of_hasEntry (h : table.HasEntry state cell entry) :
    Table.lookup table.toDatum (.int state) cell = .ok entry.toTransition := by
  rcases table.lookup_cases state cell with ⟨found, hfound, hlookup⟩ | ⟨hnone, -⟩
  · rw [h.unique hfound, hlookup]
  · exact absurd h (hnone entry)

/-- A look-up without an entry fails. -/
theorem lookup_of_not_hasEntry (h : ∀ entry, ¬ table.HasEntry state cell entry) :
    ∃ cause, Table.lookup table.toDatum (.int state) cell =
      .error (.undefinedTransition cause (.int state) cell) := by
  rcases table.lookup_cases state cell with ⟨entry, hentry, -⟩ | ⟨-, hlookup⟩
  · exact absurd hentry (h entry)
  · exact hlookup

/-! ### What a run comes to -/

variable {tape last last' : Tape Datum} {now now' : ℤ} {made earlier limit : ℕ}

/-- **What a run comes to**: `table.Reaches tape state made last now` if `made` transitions by
entries of the table, none of them from the halt, lead from a tape and a state to `last` and
`now`. -/
inductive Reaches (table : PartialTable) (tape : Tape Datum) (state : ℤ) :
    ℕ → Tape Datum → ℤ → Prop
  | start : Reaches table tape state 0 tape state
  | move {made : ℕ} {last : Tape Datum} {now : ℤ} {entry : PartialEntry} :
      Reaches table tape state made last now → now ≠ haltState →
      table.HasEntry now last.head entry →
      Reaches table tape state (made + 1) (entry.toTransition.apply last) entry.next

/-- A number of transitions leads to one tape and one state only. -/
theorem Reaches.unique (h : table.Reaches tape state made last now)
    (h' : table.Reaches tape state made last' now') : last = last' ∧ now = now' := by
  induction h generalizing last' now' with
  | start =>
      cases h'
      exact ⟨rfl, rfl⟩
  | move _ _ hentry ih =>
      cases h' with
      | move hbefore _ hentry' =>
          obtain ⟨rfl, rfl⟩ := ih hbefore
          obtain rfl := hentry.unique hentry'
          exact ⟨rfl, rfl⟩

/-- An extension comes to whatever the table that it extends comes to. -/
theorem Reaches.extend (hextends : large.Extends table)
    (h : table.Reaches tape state made last now) : large.Reaches tape state made last now := by
  induction h with
  | start => exact .start
  | move _ hnow hentry ih => exact .move ih hnow (hentry.extend hextends)

/-- What a run has come to before, and left, was no hole. -/
theorem Reaches.not_isHole_of_lt (h : table.Reaches tape state made last now)
    (h' : table.Reaches tape state earlier last' now') (hlt : earlier < made) :
    ¬ table.IsHole now' last'.head := by
  induction h with
  | start => exact absurd hlt (Nat.not_lt_zero _)
  | @move made last now entry hbefore hnow hentry ih =>
      rcases Nat.lt_succ_iff_lt_or_eq.mp hlt with hlt | rfl
      · exact ih hlt
      · obtain ⟨rfl, rfl⟩ := hbefore.unique h'
        exact fun hhole => hhole.2 entry hentry

/-- **Three ways for a run.** Within a number of transitions a run comes to the halt or, before
the last of them, to a hole; or it makes them all and is not at the halt. -/
theorem exists_reaches (table : PartialTable) (tape : Tape Datum) (state : ℤ) (limit : ℕ) :
    (∃ made ≤ limit, ∃ last, table.Reaches tape state made last haltState) ∨
    (∃ made < limit, ∃ last now,
      table.Reaches tape state made last now ∧ table.IsHole now last.head) ∨
    ∃ last now, table.Reaches tape state limit last now ∧ now ≠ haltState := by
  induction limit with
  | zero =>
      by_cases hhalt : state = haltState
      · subst hhalt
        exact .inl ⟨0, Nat.le_refl 0, tape, .start⟩
      · exact .inr (.inr ⟨tape, state, .start, hhalt⟩)
  | succ limit ih =>
      rcases ih with ⟨made, hle, last, hreach⟩ | ⟨made, hlt, hhole⟩ | ⟨last, now, hreach, hnow⟩
      · exact .inl ⟨made, Nat.le_succ_of_le hle, last, hreach⟩
      · exact .inr (.inl ⟨made, Nat.lt_succ_of_lt hlt, hhole⟩)
      · by_cases hentry : ∃ entry, table.HasEntry now last.head entry
        · obtain ⟨entry, hentry⟩ := hentry
          have hmoved := hreach.move hnow hentry
          by_cases hhalt : entry.next = haltState
          · rw [hhalt] at hmoved
            exact .inl ⟨limit + 1, Nat.le_refl _, _, hmoved⟩
          · exact .inr (.inr ⟨_, _, hmoved, hhalt⟩)
        · exact .inr (.inl ⟨limit, Nat.lt_succ_self limit, last, now, hreach, hnow,
            not_exists.mp hentry⟩)

/-! ### Runs on tanks -/

/-- Any integer but one is a state before the halt. -/
theorem isHalt_of_ne (h : now ≠ haltState) : isHalt (.int now) = false := by
  rw [isHalt_int, decide_eq_false h]

/-- An entry of the table makes a transition. -/
theorem next_of_hasEntry (h : table.HasEntry now last.head entry) :
    Table.next table.toDatum (.recorded last) (.int now) =
      .ok (.recorded (entry.toTransition.apply last), .int entry.next) := by
  rw [Table.next_recorded, lookup_of_hasEntry h]
  rfl

/-- At a hole a transition fails, and its fault names the state and the cell. -/
theorem next_of_isHole (h : table.IsHole now last.head) :
    ∃ cause, Table.next table.toDatum (.recorded last) (.int now) =
      .error (.undefinedTransition cause (.int now) last.head) := by
  obtain ⟨cause, hlookup⟩ := lookup_of_not_hasEntry h.2
  refine ⟨cause, ?_⟩
  rw [Table.next_recorded, hlookup]
  rfl

/-- **A run on a tank goes on from what it comes to**, with a unit less for each transition. -/
theorem runOn_of_reaches (h : table.Reaches tape state made last now) (hle : made ≤ limit)
    (what : String) :
    (Table.drive table.toDatum (.recorded tape) (.int state)).runOn (.whole limit what 0) =
      (Table.drive table.toDatum (.recorded last) (.int now)).runOn
        (.whole limit what made) := by
  induction h with
  | start => rfl
  | move _ hnow hentry ih =>
      rw [ih (Nat.le_of_succ_le hle),
        Table.runOn_drive_moved (isHalt_of_ne hnow) (next_of_hasEntry hentry) (by omega)]
      rfl

/-- What the query for a run on a table does on a fresh tank. -/
def drawn (table : PartialTable) (tape : Tape Datum) (state : ℤ) (limit : ℕ) (what : String) :
    Except Fault Datum × Tank :=
  (Query.run table.toDatum tape.toDatum (.int state)).derive.runOn (.whole limit what 0)

/-- It is what the run does from anything that it comes to within the limit. -/
theorem drawn_of_reaches (h : table.Reaches tape state made last now) (hle : made ≤ limit)
    (what : String) :
    table.drawn tape state limit what =
      let rest := (Table.drive table.toDatum (.recorded last) (.int now)).runOn
        (.whole limit what made)
      (rest.1.map AnyTape.toDatum, rest.2) := by
  rw [drawn, Machine.runOn_derive_run table.ofLiteral_toDatum, runOn_of_reaches h hle]

/-- A run that comes to the halt within the limit yields its tape. -/
theorem drawn_of_halt (h : table.Reaches tape state made last haltState) (hle : made ≤ limit)
    (what : String) :
    table.drawn tape state limit what = (.ok last.toDatum, .whole limit what made) := by
  rw [drawn_of_reaches h hle, Table.runOn_drive_halt rfl]
  rfl

/-- A run that comes to a hole with a unit left spends it, and fails there. -/
theorem drawn_of_isHole (h : table.Reaches tape state made last now)
    (hhole : table.IsHole now last.head) (hlt : made < limit) (what : String) :
    ∃ cause, table.drawn tape state limit what =
      (.error (.undefinedTransition cause (.int now) last.head),
        .whole limit what (made + 1)) := by
  obtain ⟨cause, hnext⟩ := next_of_isHole hhole
  refine ⟨cause, ?_⟩
  rw [drawn_of_reaches h (Nat.le_of_lt hlt),
    Table.runOn_drive_failed (isHalt_of_ne hhole.1) hnext (by omega)]
  rfl

/-- A run that has spent the limit before the halt overdraws the tank by a unit, whether it is
at a hole or not. -/
theorem drawn_of_short (h : table.Reaches tape state limit last now) (hnow : now ≠ haltState)
    (what : String) :
    table.drawn tape state limit what =
      (.error (.budgetExceeded (.int limit) (.int (limit + 1)) what),
        .whole limit what (limit + 1)) := by
  rw [drawn_of_reaches h (Nat.le_refl limit),
    Table.runOn_drive_short (isHalt_of_ne hnow) _ _ (Int.le_refl _),
    overdraw_of_le (Int.le_refl _)]
  rfl

/-- **Three ways for two runs.** The runs of a table and of one that extends it come to the halt
at the same cost, or run short alike, unless the run of the former comes to a hole. -/
theorem drawn_cases (hextends : large.Extends table) (tape : Tape Datum) (state : ℤ) (limit : ℕ)
    (what : String) :
    (∃ last, (table.drawn tape state limit what).1 = .ok last ∧
      large.drawn tape state limit what = table.drawn tape state limit what) ∨
    (∃ made < limit, ∃ last now,
      table.Reaches tape state made last now ∧ table.IsHole now last.head) ∨
    ((table.drawn tape state limit what).1 =
        .error (.budgetExceeded (.int limit) (.int (limit + 1)) what) ∧
      large.drawn tape state limit what = table.drawn tape state limit what) := by
  rcases table.exists_reaches tape state limit with
    ⟨made, hle, last, hreach⟩ | hhole | ⟨last, now, hreach, hnow⟩
  · rw [drawn_of_halt hreach hle, drawn_of_halt (hreach.extend hextends) hle]
    exact .inl ⟨_, rfl, rfl⟩
  · exact .inr (.inl hhole)
  · rw [drawn_of_short hreach hnow, drawn_of_short (hreach.extend hextends) hnow]
    exact .inr (.inr ⟨rfl, rfl⟩)

/-! ### Holes that matter -/

/-- A fault of a look-up without an entry. -/
def IsLookupFault : Fault → Prop
  | .undefinedTransition .. => True
  | _ => False

/-- **Only a hole that a run comes to makes a difference.** Let a table extend another one, which
may have holes. For each tape, integer for a state, and limit, a run on the smaller table that
yields a tape or runs short of its budget does the same on the larger one and spends the same. It
ends with the fault of a look-up exactly if it comes to a hole with fewer transitions than the
limit. The fault then names the state and the cell of that hole, which is the first one, and the
unit for the look-up is spent. There is no other way to fail but to overdraw the tank by a
unit. -/
theorem holes_matter_when_reached {small large : PartialTable} (hextends : large.Extends small)
    (tape : Tape Datum) (state : ℤ) (limit : ℕ) (what : String) :
    let run := fun table : PartialTable => table.drawn tape state limit what
    ((∃ last, (run small).1 = .ok last) ∨
        (∃ fault, (run small).1 = .error fault ∧ IsBudgetFault fault) → run large = run small) ∧
    ((∃ fault, (run small).1 = .error fault ∧ IsLookupFault fault) ↔
      ∃ made < limit, ∃ last now,
        small.Reaches tape state made last now ∧ small.IsHole now last.head) ∧
    (∀ made < limit, ∀ last now,
      small.Reaches tape state made last now → small.IsHole now last.head →
      (∃ cause, run small =
        (.error (.undefinedTransition cause (.int now) last.head),
          .whole limit what (made + 1))) ∧
      ∀ earlier < made, ∀ last' now', small.Reaches tape state earlier last' now' →
        ¬ small.IsHole now' last'.head) ∧
    ∀ fault, (run small).1 = .error fault →
      IsLookupFault fault ∨ fault = .budgetExceeded (.int limit) (.int (limit + 1)) what := by
  intro run
  have hcases := drawn_cases hextends tape state limit what
  refine ⟨fun hend => ?_, ⟨?_, ?_⟩, fun made hlt last now hreach hhole =>
    ⟨drawn_of_isHole hreach hhole hlt what,
      fun earlier hearlier last' now' hreach' => hreach.not_isHole_of_lt hreach' hearlier⟩, ?_⟩
  · rcases hcases with ⟨_, -, hsame⟩ | ⟨made, hlt, last, now, hreach, hhole⟩ | ⟨-, hsame⟩
    · exact hsame
    · obtain ⟨cause, hfails⟩ := drawn_of_isHole hreach hhole hlt what
      simp only [run, hfails] at hend
      rcases hend with ⟨_, hlast⟩ | ⟨fault, hfault, hbudget⟩
      · cases hlast
      · cases hfault
        exact hbudget.elim
    · exact hsame
  · rintro ⟨fault, hfault, hlookup⟩
    rcases hcases with ⟨_, hlast, -⟩ | hhole | ⟨hshort, -⟩
    · cases hlast.symm.trans hfault
    · exact hhole
    · cases hshort.symm.trans hfault
      exact hlookup.elim
  · rintro ⟨made, hlt, last, now, hreach, hhole⟩
    obtain ⟨cause, hfails⟩ := drawn_of_isHole hreach hhole hlt what
    exact ⟨_, congrArg Prod.fst hfails, trivial⟩
  · intro fault hfault
    rcases hcases with ⟨_, hlast, -⟩ | ⟨made, hlt, last, now, hreach, hhole⟩ | ⟨hshort, -⟩
    · cases hlast.symm.trans hfault
    · obtain ⟨cause, hfails⟩ := drawn_of_isHole hreach hhole hlt what
      cases (congrArg Prod.fst hfails).symm.trans hfault
      exact .inl trivial
    · cases hshort.symm.trans hfault
      exact .inr rfl

/-- A table with a hole for a one in its first state; the entry of its second state, which no run
from the first one comes to, leads out of the table. -/
def holey : PartialTable where
  states := [⟨[(false, ⟨.int 1, .direction .left, 0⟩)], by decide⟩,
    ⟨[(true, ⟨.int 0, .direction .right, -2⟩)], by decide⟩, ⟨[], by decide⟩]

/-- The same table with the hole filled by an entry that halts, and with one more state. -/
def filled : PartialTable where
  states := [⟨[(true, ⟨.int 1, .direction .right, haltState⟩),
      (false, ⟨.int 1, .direction .left, 0⟩)], by decide⟩,
    ⟨[(true, ⟨.int 0, .direction .right, -2⟩)], by decide⟩, ⟨[], by decide⟩, ⟨[], by decide⟩]

/-- From a zero with a one to its left the first table comes to its hole by one transition. With
a limit of one the run is cut off there, as that of the other table is; with a limit of two it
fails. -/
theorem holey_agrees_until_hole :
    filled.Extends holey ∧
    let tape : Tape Datum := ⟨[.int 1], .int 0, []⟩
    let last : Tape Datum := ⟨[], .int 1, [.int 1]⟩
    IsBudgetFault (.budgetExceeded (.int 1) (.int 2) "run") ∧
    (holey.drawn tape 0 1 "run").1 = .error (.budgetExceeded (.int 1) (.int 2) "run") ∧
    filled.drawn tape 0 1 "run" = holey.drawn tape 0 1 "run" ∧
    holey.Reaches tape 0 1 last 0 ∧ holey.IsHole 0 (.int 1) ∧
    ∃ cause, holey.drawn tape 0 2 "run" =
      (.error (.undefinedTransition cause (.int 0) (.int 1)), .whole 2 "run" 2) := by
  have hextends : filled.Extends holey := by
    rintro (_ | _ | _ | s) found hfound
    · cases hfound
      exact ⟨_, rfl, by simp⟩
    · cases hfound
      exact ⟨_, rfl, by simp⟩
    · cases hfound
      exact ⟨_, rfl, by simp⟩
    · cases hfound
  have hentry : holey.HasEntry 0 (.int 0) ⟨.int 1, .direction .left, 0⟩ :=
    ⟨0, _, false, rfl, rfl, rfl, List.mem_singleton_self _⟩
  have hrunning : (0 : ℤ) ≠ haltState := by decide
  have hstart : holey.Reaches ⟨[.int 1], .int 0, []⟩ 0 0 ⟨[.int 1], .int 0, []⟩ 0 := .start
  have hreach : holey.Reaches ⟨[.int 1], .int 0, []⟩ 0 1 ⟨[], .int 1, [.int 1]⟩ 0 :=
    hstart.move hrunning hentry
  have hhole : holey.IsHole 0 (.int 1) := by
    refine ⟨hrunning, ?_⟩
    rintro entry ⟨s, found, bit, hs, hfound, hbit, hmem⟩
    obtain rfl : 0 = s := Int.ofNat_inj.mp hs
    cases hfound
    cases hbit
    cases List.mem_singleton.mp hmem
  have hshort : (holey.drawn ⟨[.int 1], .int 0, []⟩ 0 1 "run").1 =
      .error (.budgetExceeded (.int 1) (.int 2) "run") := rfl
  obtain ⟨hsame, -⟩ := holes_matter_when_reached hextends ⟨[.int 1], .int 0, []⟩ 0 1 "run"
  obtain ⟨-, -, hfirst, -⟩ := holes_matter_when_reached hextends ⟨[.int 1], .int 0, []⟩ 0 2 "run"
  exact ⟨hextends, trivial, hshort, hsame (.inr ⟨_, hshort, trivial⟩), hreach, hhole,
    (hfirst 1 (by decide) _ _ hreach hhole).1⟩

end PartialTable

end Metered
