import Mathlib.Data.Char
import Mathlib.Data.List.DropRight
import Metered.Proofs.Violation

/-!
# The Words for Directions

A direction is read from a word by way of the capital form of what is left of it once the blanks
around it are dropped. Capital forms may be longer than what they are the forms of, and letters
outside of `a` to `z` have some of those in `A` to `Z`. So it takes a proof that the words that are
read are the expected ones and no others: the letter and the name of a direction in any mixture of
cases, and with them the word for the right written with an i without its dot.

What the words are is said here without capital forms and without dropping anything. A word stands
in a text with blanks around it (`Text.IsCore`), and it spells a word in small letters letter by
letter (`Text.Spells`).

## Main results

* `Text.isCore_iff`: dropping the blanks at both ends leaves what stands between them;
* `Text.capital_eq_singleton_iff`: the characters whose capital form is a given letter;
* `Text.capitals_eq_iff`: the texts whose capital form is a given word;
* `Direction.ofWord?_eq_some_iff`: the words for a direction;
* `Direction.words_are_exact`: all data that are read as directions, and what becomes of a table
  with an entry that moves in none.
-/

namespace Metered

namespace Text

/-! ### What stands between blanks -/

/-- **What stands in a text** once the characters of a class are set aside at its two ends: it
neither begins nor ends with one of them. -/
structure IsCore (p : Char → Bool) (text core : List Char) : Prop where
  exists_append : ∃ before after, text = before ++ core ++ after ∧
    (∀ c ∈ before, p c = true) ∧ ∀ c ∈ after, p c = true
  head_not : ∀ c, core.head? = some c → p c = false
  last_not : ∀ c, core.getLast? = some c → p c = false

variable {p : Char → Bool} {text core : List Char}

/-- What is left after dropping from the left does not begin with a dropped character. -/
theorem head?_dropWhile_eq_some {c : Char} (h : (text.dropWhile p).head? = some c) :
    p c = false := by
  have hnot := List.head?_dropWhile_not p text
  rwa [h] at hnot

/-- Nothing is dropped from a text that does not begin with such a character. -/
theorem dropWhile_eq_self (h : ∀ c, text.head? = some c → p c = false) :
    text.dropWhile p = text := by
  cases text with
  | nil => rfl
  | cons c rest => exact List.dropWhile_cons_of_neg (Bool.eq_false_iff.mp (h c rfl))

/-- **Trimming** leaves what stands in a text. -/
theorem isCore_trim (p : Char → Bool) (text : List Char) : IsCore p text (trim p text) where
  exists_append := by
    refine ⟨text.takeWhile p, (text.dropWhile p).rtakeWhile p, ?_,
      fun c hc => List.mem_takeWhile_imp hc, fun c hc => List.mem_rtakeWhile_imp hc⟩
    have hright : trim p text ++ (text.dropWhile p).rtakeWhile p = text.dropWhile p :=
      List.rdropWhile_append_rtakeWhile
    rw [List.append_assoc, hright, List.takeWhile_append_dropWhile]
  head_not c hc := by
    obtain ⟨after, hafter⟩ : trim p text <+: text.dropWhile p := List.rdropWhile_prefix p _
    have hhead : (text.dropWhile p).head? = some c := by
      rw [← hafter, List.head?_append, hc, Option.some_or]
    exact head?_dropWhile_eq_some hhead
  last_not c hc := by
    rw [trim, List.getLast?_reverse] at hc
    exact head?_dropWhile_eq_some hc

/-- **Only one text stands in a text** between such ends: what trimming leaves. -/
theorem isCore_iff : IsCore p text core ↔ core = trim p text := by
  refine ⟨fun ⟨hexists, hhead, hlast⟩ => ?_, fun h => h ▸ isCore_trim p text⟩
  obtain ⟨before, after, rfl, hbefore, hafter⟩ := hexists
  rw [trim, List.append_assoc, List.dropWhile_append_of_pos hbefore]
  have hreverse : ∀ c ∈ after.reverse, p c = true := fun c hc => hafter c (List.mem_reverse.mp hc)
  cases core with
  | nil => rw [List.nil_append, List.dropWhile_eq_nil_iff.mpr hafter]; rfl
  | cons c rest =>
      have hleft : (c :: rest ++ after).dropWhile p = c :: rest ++ after :=
        dropWhile_eq_self fun d hd => hhead d hd
      have hright : (c :: rest).reverse.dropWhile p = (c :: rest).reverse :=
        dropWhile_eq_self fun d hd => hlast d (by rwa [List.head?_reverse] at hd)
      rw [hleft, List.reverse_append, List.dropWhile_append_of_pos hreverse, hright,
        List.reverse_reverse]

/-! ### Capital letters -/

/-- A small letter. -/
def IsSmall (c : Char) : Prop :=
  'a' ≤ c ∧ c ≤ 'z'

instance (c : Char) : Decidable (IsSmall c) :=
  inferInstanceAs (Decidable ('a' ≤ c ∧ c ≤ 'z'))

/-- A small letter comes 32 places after its capital. -/
theorem IsSmall.toNat_toUpper {c : Char} (h : IsSmall c) : c.toUpper.toNat + 32 = c.toNat := by
  have hlow : 97 ≤ c.val.toNat := UInt32.le_iff_toNat_le.mp h.1
  have hhigh : c.val.toNat ≤ 122 := UInt32.le_iff_toNat_le.mp h.2
  have hcapital : c.toUpper = ⟨c.val + ('A'.val - 'a'.val), _⟩ := dif_pos h
  have hshift : (c.val + ('A'.val - 'a'.val)).toNat = (c.val.toNat + (2 ^ 32 - 32)) % 2 ^ 32 :=
    UInt32.toNat_add ..
  change c.toUpper.val.toNat + 32 = c.val.toNat
  rw [hcapital, hshift]
  omega

/-- Different small letters have different capitals. -/
theorem IsSmall.toUpper_inj {c d : Char} (hc : IsSmall c) (hd : IsSmall d) :
    c.toUpper = d.toUpper ↔ c = d := by
  refine ⟨fun h => Char.toNat_inj.mp ?_, congrArg Char.toUpper⟩
  rw [← hc.toNat_toUpper, ← hd.toNat_toUpper, h]

/-- The capital of a small letter is not after `Z`. -/
theorem IsSmall.toUpper_le {c : Char} (hc : IsSmall c) : c.toUpper ≤ 'Z' := by
  have hhigh : c.toNat ≤ 122 := UInt32.le_iff_toNat_le.mp hc.2
  have hcapital := hc.toNat_toUpper
  have hle : c.toUpper.toNat ≤ 90 := by omega
  exact UInt32.le_iff_toNat_le.mpr hle

/-- The letters outside of `a` to `z` come after `Z`. -/
theorem lt_of_mem_irregularCapitals : ∀ entry ∈ irregularCapitals, 'Z' < entry.1 := by
  decide

/-- Two of them have a single capital letter. -/
theorem eq_of_mem_irregularCapitals : ∀ entry ∈ irregularCapitals,
    entry.2.toList.length = 1 → entry = ('\u0131', "I") ∨ entry = ('\u017F', "S") := by
  decide

/-- A small letter has its capital. -/
theorem capital_of_isSmall {c : Char} (h : IsSmall c) : capital c = [c.toUpper] :=
  if_pos h

/-- A capital letter is its own capital. -/
theorem capital_toUpper {c : Char} (h : IsSmall c) : capital c.toUpper = [c.toUpper] := by
  have hsmall : ¬ ('a' ≤ c.toUpper ∧ c.toUpper ≤ 'z') := fun ⟨hle, _⟩ =>
    absurd (le_trans hle h.toUpper_le) (by decide)
  have hlookup : irregularCapitals.lookup c.toUpper = none := by
    rw [List.lookup_eq_none_iff]
    intro entry hentry
    have hlt := lt_of_le_of_lt h.toUpper_le (lt_of_mem_irregularCapitals entry hentry)
    exact bne_iff_ne.mpr hlt.ne
  rw [capital, if_neg hsmall, hlookup]

/-- The capital form of a character is that of a small letter, one from the table or the character
itself. -/
theorem capital_cases (c : Char) :
    (IsSmall c ∧ capital c = [c.toUpper]) ∨
      (∃ form, (c, form) ∈ irregularCapitals ∧ capital c = form.toList) ∨ capital c = [c] := by
  by_cases hc : 'a' ≤ c ∧ c ≤ 'z'
  · exact .inl ⟨hc, if_pos hc⟩
  · rw [capital, if_neg hc]
    cases hlookup : irregularCapitals.lookup c with
    | none => exact .inr (.inr rfl)
    | some form =>
        obtain ⟨before, after, htable, -⟩ := List.lookup_eq_some_iff.mp hlookup
        have hmem : (c, form) ∈ irregularCapitals := by
          rw [htable]
          exact List.mem_append_right before List.mem_cons_self
        exact .inr (.inl ⟨form, hmem, rfl⟩)

/-- **The forms of a small letter** in a word: itself, its capital, and an i without its dot. -/
def IsFormOf (c letter : Char) : Prop :=
  c = letter ∨ c = letter.toUpper ∨ letter = 'i' ∧ c = '\u0131'

/-- **The characters with a given capital** are the forms of the small letter; there is one more
for the letter s. -/
theorem capital_eq_singleton_iff {c letter : Char} (hletter : IsSmall letter) (hs : letter ≠ 's') :
    capital c = [letter.toUpper] ↔ IsFormOf c letter := by
  constructor
  · intro h
    obtain ⟨hc, hcapital⟩ | ⟨form, hmem, hcapital⟩ | hcapital := capital_cases c
    · exact .inl ((hc.toUpper_inj hletter).mp (List.singleton_inj.mp (hcapital.symm.trans h)))
    · have hform : form.toList = [letter.toUpper] := hcapital.symm.trans h
      obtain heq | heq := eq_of_mem_irregularCapitals _ hmem (congrArg List.length hform)
      · cases heq
        have hi : 'i'.toUpper = letter.toUpper := List.singleton_inj.mp hform
        exact .inr (.inr ⟨((IsSmall.toUpper_inj (by decide) hletter).mp hi).symm, rfl⟩)
      · cases heq
        have hs' : 's'.toUpper = letter.toUpper := List.singleton_inj.mp hform
        exact absurd ((IsSmall.toUpper_inj (by decide) hletter).mp hs').symm hs
    · exact .inr (.inl (List.singleton_inj.mp (hcapital.symm.trans h)))
  · rintro (rfl | rfl | ⟨rfl, rfl⟩)
    · exact capital_of_isSmall hletter
    · exact capital_toUpper hletter
    · decide

/-! ### Words -/

/-- **A text spells a word** of small letters if its characters are forms of the letters, one by
one. -/
def Spells (word text : List Char) : Prop :=
  List.Forall₂ (fun letter c => IsFormOf c letter) word text

/-- A word that can only be spelled letter by letter: its letters are small, none is an s, and no
capital form of several letters is a part of it. -/
structure IsPlainWord (word : List Char) : Prop where
  isSmall : ∀ letter ∈ word, IsSmall letter ∧ letter ≠ 's'
  not_isInfix : ∀ entry ∈ irregularCapitals, 1 < entry.2.toList.length →
    ¬ entry.2.toList <:+: word.map Char.toUpper

/-- Less of a word can be spelled letter by letter if the word can. -/
theorem IsPlainWord.tail {letter : Char} {word : List Char} (h : IsPlainWord (letter :: word)) :
    IsPlainWord word where
  isSmall other hother := h.isSmall other (List.mem_cons_of_mem letter hother)
  not_isInfix entry hentry hlong hinfix := h.not_isInfix entry hentry hlong (List.infix_cons hinfix)

/-- A capital form is a single character or one of the longer ones in the table. -/
theorem capital_eq_singleton_or (c : Char) :
    (∃ x, capital c = [x]) ∨ ∃ entry ∈ irregularCapitals,
      1 < entry.2.toList.length ∧ capital c = entry.2.toList := by
  obtain ⟨-, hcapital⟩ | ⟨form, hmem, hcapital⟩ | hcapital := capital_cases c
  · exact .inl ⟨_, hcapital⟩
  · have hpos : ∀ entry ∈ irregularCapitals, 0 < entry.2.toList.length := by decide
    obtain hlong | hsingle := Nat.lt_or_eq_of_le (Nat.succ_le_of_lt (hpos _ hmem))
    · exact .inr ⟨_, hmem, hlong, hcapital⟩
    · obtain ⟨x, hx⟩ := List.length_eq_one_iff.mp hsingle.symm
      exact .inl ⟨x, hcapital.trans hx⟩
  · exact .inl ⟨_, hcapital⟩

/-- No character is lost in a capital form. -/
theorem capital_ne_nil (c : Char) : capital c ≠ [] := by
  obtain ⟨x, hx⟩ | ⟨entry, -, hlong, hform⟩ := capital_eq_singleton_or c
  · rw [hx]
    exact List.cons_ne_nil x []
  · rw [hform]
    exact List.length_pos_iff.mp (Nat.zero_lt_of_lt hlong)

/-- **The texts with a given capital form** are those that spell the word. -/
theorem capitals_eq_iff {word : List Char} (hword : IsPlainWord word) (text : List Char) :
    capitals text = word.map Char.toUpper ↔ Spells word text := by
  induction word generalizing text with
  | nil =>
      rw [Spells, List.forall₂_nil_left_iff, List.map_nil, capitals, List.flatMap_eq_nil_iff]
      refine ⟨fun h => List.eq_nil_iff_forall_not_mem.mpr fun c hc => ?_, fun h => ?_⟩
      · exact capital_ne_nil c (h c hc)
      · rw [h]
        exact List.forall_mem_nil _
  | cons letter word ih =>
      cases text with
      | nil => exact ⟨fun h => (List.cons_ne_nil _ _ h.symm).elim, fun h => by cases h⟩
      | cons c rest =>
          obtain ⟨hletter, hs⟩ := hword.isSmall letter List.mem_cons_self
          have hcons : capitals (c :: rest) = capital c ++ capitals rest := List.flatMap_cons
          rw [Spells, List.forall₂_cons, ← capital_eq_singleton_iff hletter hs]
          change _ ↔ _ ∧ Spells word rest
          rw [← ih hword.tail, hcons, List.map_cons]
          obtain ⟨x, hx⟩ | ⟨entry, hentry, hlong, hform⟩ := capital_eq_singleton_or c
          · rw [hx, List.singleton_append, List.cons_eq_cons, List.singleton_inj]
          · -- a longer capital form would be a part of the word
            rw [hform]
            refine ⟨fun h => ?_, fun ⟨h, _⟩ => ?_⟩
            · have hprefix : entry.2.toList <+: (letter :: word).map Char.toUpper := ⟨_, h⟩
              exact absurd hprefix.isInfix (hword.not_isInfix entry hentry hlong)
            · rw [h] at hlong
              exact absurd hlong (Nat.lt_irrefl 1)

end Text

namespace Direction

/-! ### The words for a direction -/

/-- The words for a direction, in small letters. -/
def words : Direction → List String
  | left => ["l", "left"]
  | right => ["r", "right"]

/-- A text that spells one of the words for a direction. -/
def IsNamedBy (direction : Direction) (text : List Char) : Prop :=
  ∃ word ∈ direction.words, Text.Spells word.toList text

/-- The words for directions can only be spelled letter by letter. -/
theorem isPlainWord_words (direction : Direction) :
    ∀ word ∈ direction.words, Text.IsPlainWord word.toList := by
  cases direction with
  | left =>
      refine List.forall_mem_cons.mpr ⟨⟨by simp [Text.IsSmall], by decide +kernel⟩, ?_⟩
      exact List.forall_mem_singleton.mpr ⟨by simp [Text.IsSmall], by decide +kernel⟩
  | right =>
      refine List.forall_mem_cons.mpr ⟨⟨by simp [Text.IsSmall], by decide +kernel⟩, ?_⟩
      exact List.forall_mem_singleton.mpr ⟨by simp [Text.IsSmall], by decide +kernel⟩

/-- A text names a direction if its capital form is that of one of the words for it. -/
theorem ofWord?_eq_some_iff_capitals {text : String} {direction : Direction} :
    ofWord? text = some direction ↔ ∃ word ∈ direction.words,
      Text.capitals (Text.trim Text.isBlank text.toList) = word.toList.map Char.toUpper := by
  rw [ofWord?]
  generalize Text.capitals (Text.trim Text.isBlank text.toList) = form
  constructor
  · intro h
    split at h
    · cases h
      exact ⟨"l", by decide, rfl⟩
    · cases h
      exact ⟨"left", by decide, rfl⟩
    · cases h
      exact ⟨"r", by decide, rfl⟩
    · cases h
      exact ⟨"right", by decide, rfl⟩
    · cases h
  · rintro ⟨word, hword, rfl⟩
    cases direction with
    | left =>
        obtain rfl | hword := List.mem_cons.mp hword
        · rfl
        · obtain rfl := List.mem_singleton.mp hword
          rfl
    | right =>
        obtain rfl | hword := List.mem_cons.mp hword
        · rfl
        · obtain rfl := List.mem_singleton.mp hword
          rfl

/-- **The words that are read**: a text names a direction if, without the blanks around it, it
spells one of the words for it. -/
theorem ofWord?_eq_some_iff {text : String} {direction : Direction} :
    ofWord? text = some direction ↔
      direction.IsNamedBy (Text.trim Text.isBlank text.toList) := by
  rw [ofWord?_eq_some_iff_capitals]
  refine exists_congr fun word => and_congr_right fun hword => ?_
  exact Text.capitals_eq_iff (direction.isPlainWord_words word hword) _

/-! ### Data for directions -/

/-- A text is read as a direction if what stands between the blanks at its two ends spells one of
the words for it. -/
theorem ofDatum_text_eq_ok_iff {text : String} {core : List Char}
    (hcore : Text.IsCore Text.isBlank text.toList core) (direction : Direction) :
    ofDatum (.text text) = .ok direction ↔ direction.IsNamedBy core := by
  rw [Text.isCore_iff.mp hcore, ← ofWord?_eq_some_iff, ofDatum, Instruction.direction?]
  cases ofWord? text with
  | none => exact ⟨fun h => (by cases h), fun h => (by cases h)⟩
  | some other => rw [Except.ok.injEq, Option.some_inj]

/-- What is read as no direction is named in the fault. -/
theorem ofDatum_eq_error {value : Datum} (h : ∀ direction, ofDatum value ≠ .ok direction) :
    ofDatum value = .error (.notDirection value) := by
  rw [ofDatum] at h ⊢
  cases hread : Instruction.direction? value with
  | none => rfl
  | some direction =>
      rw [hread] at h
      exact absurd rfl (h direction)

end Direction

namespace Table

/-- The check of a table comes to an entry if every entry before it, in the order of states and then
of bits, spells something. -/
def IsReached (states : List Datum) (i : ℕ) (bit : Bool) : Prop :=
  ∀ j bit' state, states[j]? = some state → (j < i ∨ j = i ∧ bit' = false ∧ bit = true) →
    State.IsSpelled states.length state bit'

/-- The words on an entry that moves in no direction: the state, the bit and the words on what was
not read as a direction. -/
theorem message_badMove (i : ℕ) (bit : Bool) (move : Datum) :
    (Fault.undefinedTransition (.badMove move) (.int i) (.ofBit bit)).message =
      "state " ++ toString i ++ ", bit " ++ (if bit then "1" else "0") ++ ": " ++
        (Fault.notDirection move).message := by
  cases bit <;> rfl

end Table

namespace Direction

/-- **What is read as a direction, exactly.** In every text one text stands between the blanks at
its two ends. The text is read as a direction if and only if that one spells the letter or the name
of the direction, in any mixture of cases; an i, which is in the name of the right only, may lack
its dot. A direction is read as itself. In all other cases the fault is one of value.

If the move of an entry of a table is read as no direction, the table does not pass its check, which
ends at this entry or at one before it with the fault of having no transition there. If it comes to
the move, the fault is that of this entry, has its state and its bit, and repeats the words on the
move. -/
theorem words_are_exact :
    (∀ text : String, ∃! core, Text.IsCore Text.isBlank text.toList core) ∧
    (∀ (text : String) (core : List Char), Text.IsCore Text.isBlank text.toList core →
      (∀ direction, ofDatum (.text text) = .ok direction ↔ IsNamedBy direction core) ∧
      ((∀ direction, ¬ IsNamedBy direction core) →
        ofDatum (.text text) = .error (.notDirection (.text text)))) ∧
    (∀ direction, ofDatum (.direction direction) = .ok direction) ∧
    (∀ value : Datum, (∀ text, value ≠ .text text) → (∀ direction, value ≠ .direction direction) →
      ofDatum value = .error (.notDirection value)) ∧
    (∀ value, (Fault.notDirection value).report =
      .ofMessage .wrongValue ("Not a direction: " ++ value.written)) ∧
    ∀ (raw : Datum) (states : List Datum), raw.items? = some states →
      ∀ (i : ℕ) (bit : Bool) (state write move next : Datum) (failure : Fault),
        states[i]? = some state → State.HasFields state bit write move next →
        ofDatum move = .error failure →
        (∃ (j : ℕ) (bit' : Bool) (cause : TableFault),
          Table.ofDatum raw = .error (.undefinedTransition cause (.int j) (.ofBit bit')) ∧
          (j < i ∨ j = i ∧ (bit' = true → bit = true))) ∧
        (Table.IsReached states i bit → State.IsBit write → ∃ fault,
          Table.ofDatum raw = .error fault ∧
          fault.report.kind = .undefinedTransition ∧
          fault.report.attributes = [("state", .int i), ("bit", .ofBit bit)] ∧
          fault.message = "state " ++ toString i ++ ", bit " ++ (if bit then "1" else "0") ++
            ": " ++ failure.message) := by
  refine ⟨fun text => ?_, fun text core hcore => ⟨ofDatum_text_eq_ok_iff hcore, fun hnone => ?_⟩,
    fun direction => rfl, fun value htext hdirection => ?_, fun value => rfl, ?_⟩
  · exact ⟨_, Text.isCore_trim _ _, fun core hcore => Text.isCore_iff.mp hcore⟩
  · exact ofDatum_eq_error fun direction h =>
      hnone direction ((ofDatum_text_eq_ok_iff hcore direction).mp h)
  · cases value with
    | text word => exact absurd rfl (htext word)
    | direction direction => exact absurd rfl (hdirection direction)
    | _ => rfl
  · intro raw states hitems i bit state write move next failure hstate hfields hfailure
    have hmove (direction : Direction) : ofDatum move ≠ .ok direction := by
      intro hdirection
      cases hfailure.symm.trans hdirection
    obtain rfl : failure = .notDirection move :=
      Except.error.inj (hfailure.symm.trans (ofDatum_eq_error hmove))
    refine ⟨Table.exists_ofDatum_of_hasFault hitems hstate (.badMove hfields hmove), ?_⟩
    intro hreached hwrite
    have hfirst : Table.IsFirstViolation states.length states i bit (.badMove move) :=
      ⟨⟨state, hstate, .badMove hfields hwrite hmove⟩, hreached⟩
    exact ⟨_, Table.ofDatum_of_isFirstViolation hitems hfirst, rfl, rfl,
      Table.message_badMove i bit move⟩

/-- A table of one state, which moves to the left on a zero and in no direction on a one. -/
def upwardTable : Datum :=
  .list [.tuple [.tuple [.int 1, .text "left", .int haltState],
    .tuple [.int 0, .text "up", .int 9]]]

/-- A word for the right between blanks, with capital letters in it and an i without its dot, is
read, and a word for neither direction is not. A table with an entry that moves there fails for the
move, although the next state of that entry would not do either. -/
theorem words_are_exact_right_up :
    Text.IsCore Text.isBlank " r\u0131GhT\u3000".toList "r\u0131GhT".toList ∧
    ofDatum (.text " r\u0131GhT\u3000") = .ok right ∧
    Text.IsCore Text.isBlank "up".toList "up".toList ∧
    ofDatum (.text "up") = .error (.notDirection (.text "up")) ∧
    ofDatum .null = .error (.notDirection .null) ∧
    ∃ fault, Table.ofDatum upwardTable = .error fault ∧
      fault.report.attributes = [("state", .int 0), ("bit", .int 1)] ∧
      fault.message = "state 0, bit 1: " ++ (Fault.notDirection (.text "up")).message := by
  obtain ⟨-, htext, -, hother, -, htable⟩ := words_are_exact
  have hright : Text.IsCore Text.isBlank " r\u0131GhT\u3000".toList "r\u0131GhT".toList :=
    ⟨⟨[' '], ['\u3000'], by decide, List.all_eq_true.mp rfl, List.all_eq_true.mp rfl⟩,
      fun c hc => Option.some.inj hc ▸ rfl, fun c hc => Option.some.inj hc ▸ rfl⟩
  have hnamed : IsNamedBy right "r\u0131GhT".toList :=
    ⟨"right", by decide, .cons (.inl rfl) <| .cons (.inr (.inr ⟨rfl, rfl⟩)) <|
      .cons (.inr (.inl rfl)) <| .cons (.inl rfl) <| .cons (.inr (.inl rfl)) .nil⟩
  have hup : Text.IsCore Text.isBlank "up".toList "up".toList :=
    ⟨⟨[], [], by decide, List.forall_mem_nil _, List.forall_mem_nil _⟩,
      fun c hc => Option.some.inj hc ▸ rfl, fun c hc => Option.some.inj hc ▸ rfl⟩
  have hnone (direction : Direction) : ¬ IsNamedBy direction "up".toList := by
    cases direction <;> simp [IsNamedBy, words, Text.Spells, Text.IsFormOf]
  have hfailure := (htext "up" _ hup).2 hnone
  refine ⟨hright, ((htext _ _ hright).1 right).mpr hnamed, hup, hfailure,
    hother .null (fun _ h => by cases h) (fun _ h => by cases h), ?_⟩
  have hzero : State.IsSpelled 1 (.tuple [.tuple [.int 1, .text "left", .int haltState],
      .tuple [.int 0, .text "up", .int 9]]) false :=
    ⟨.int 1, left, .int haltState, .inr rfl, ⟨haltState, rfl, .inl rfl⟩, .text "left",
      ⟨_, rfl, rfl⟩, rfl⟩
  obtain ⟨-, hreached⟩ := htable upwardTable _ rfl 0 true _ _ _ _ _ rfl ⟨_, rfl, rfl⟩ hfailure
  obtain ⟨fault, hcheck, -, hattributes, hmessage⟩ := hreached (by
    rintro j bit' state hstate (hlt | ⟨rfl, rfl, -⟩)
    · exact absurd hlt (Nat.not_lt_zero j)
    · cases hstate
      exact hzero) (.inl rfl)
  have hplace : "state " ++ toString 0 ++ ", bit " ++ (if true then "1" else "0") ++ ": " =
      "state 0, bit 1: " := by decide
  exact ⟨fault, hcheck, hattributes, hmessage.trans (congrArg (· ++ _) hplace)⟩

end Direction

end Metered
