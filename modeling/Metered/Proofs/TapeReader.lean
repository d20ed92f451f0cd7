import Metered.Proofs.Drawing
import Metered.Proofs.Ticks

/-!
# Reading Tapes Back

The text of a tape of integers can be read back, whatever the integers are and whether a state
stands before it or not. Its words are set off by spaces, which no numeral contains, and the word in
brackets is the one under the head. A label ends with a colon and begins with a letter, which no
cell does; the label of the halt is not that of a number.

In colours the same text holds escape sequences around the word in brackets. Removing them leaves
the bracket, although it follows directly on the last one.

## Main results

* `integer?_cellChars`: a numeral is read back;
* `readCells?_parts`, `readState?_stateLabel`: so are the words of a tape and a label;
* `showsAs_text`: colours do not show;
* `text_reads_back`: the text of a tape and a state determines both.
-/

namespace Metered

/-! ### Numerals -/

namespace Text

/-- The number that a row of decimal digits denotes. -/
def natural? (digits : List Char) : Option ℕ :=
  if digits ≠ [] ∧ digits.all Char.isDigit then some (Nat.ofDigitChars 10 digits 0) else none

/-- The integer that a row of decimal digits denotes, with a sign before it if it is negative. -/
def integer? : List Char → Option ℤ
  | '-' :: digits => (natural? digits).map fun n : ℕ => -(n : ℤ)
  | digits => (natural? digits).map fun n : ℕ => (n : ℤ)

/-- The digits of a number are digits. -/
theorem isDigit_of_mem_toDigits {n : ℕ} {c : Char} (h : c ∈ Nat.toDigits 10 n) :
    c.isDigit = true :=
  Nat.isDigit_of_mem_toDigits (by decide) (by decide) h

/-- The digits of a number denote it. -/
theorem natural?_toDigits (n : ℕ) : natural? (Nat.toDigits 10 n) = some n := by
  have hdigits : (Nat.toDigits 10 n).all Char.isDigit = true :=
    List.all_eq_true.mpr fun c hc => isDigit_of_mem_toDigits hc
  rw [natural?, if_pos ⟨Nat.toDigits_ne_nil, hdigits⟩, Nat.ofDigitChars_ten_toDigits]

/-- What can be read back item by item can be read back as a whole. -/
theorem mapM_map_eq_some {α β : Type} {write : α → β} {read : β → Option α}
    (h : ∀ item, read (write item) = some item) (items : List α) :
    (items.map write).mapM read = some items := by
  have hread : read ∘ write = fun item => pure item := funext h
  rw [List.mapM_map, hread, List.mapM_pure, List.map_id']
  rfl

end Text

namespace Tape

/-- A numeral has a sign if it is negative, and then the digits of its absolute value. -/
theorem cellChars_int (n : ℤ) :
    cellChars (.int n) = (if n < 0 then ['-'] else []) ++ Nat.toDigits 10 n.natAbs := by
  cases n with
  | ofNat n => exact Nat.toList_repr
  | negSucc n =>
      have htext : cellChars (.int (.negSucc n)) = ("-" ++ (n + 1).repr).toList := rfl
      rw [htext, String.toList_append, Nat.toList_repr, if_pos (Int.negSucc_lt_zero n)]
      rfl

/-- A numeral consists of digits and a sign. -/
theorem isDigit_of_mem_cellChars {n : ℤ} {c : Char} (h : c ∈ cellChars (.int n)) :
    c.isDigit = true ∨ c = '-' := by
  rw [cellChars_int, List.mem_append] at h
  rcases h with hsign | hdigit
  · split_ifs at hsign with hneg
    · exact .inr (List.mem_singleton.mp hsign)
    · cases hsign
  · exact .inl (Text.isDigit_of_mem_toDigits hdigit)

/-- A character that is neither a digit nor a sign is in no numeral. -/
theorem notMem_cellChars {c : Char} (hdigit : c.isDigit = false) (hsign : c ≠ '-') (n : ℤ) :
    c ∉ cellChars (.int n) := by
  intro hmem
  rcases isDigit_of_mem_cellChars hmem with htrue | rfl
  · rw [hdigit] at htrue
    cases htrue
  · exact hsign rfl

/-- **A numeral is read back.** -/
theorem integer?_cellChars (n : ℤ) : Text.integer? (cellChars (.int n)) = some n := by
  rw [cellChars_int]
  split_ifs with hneg
  · rw [List.singleton_append, Text.integer?, Text.natural?_toDigits, Option.map_some]
    congr 1
    omega
  · rw [List.nil_append]
    have hsign : ∀ digits, Nat.toDigits 10 n.natAbs ≠ '-' :: digits := by
      intro digits heq
      have hdigit : Char.isDigit '-' = true :=
        Text.isDigit_of_mem_toDigits (heq ▸ List.mem_cons_self)
      exact absurd hdigit (by decide)
    rw [Text.integer?.eq_2 _ hsign, Text.natural?_toDigits, Option.map_some]
    congr 1
    omega

/-! ### Cells and labels -/

/-- The tape that a row of words shows, with the cells that stood before them, nearest first. The
word in brackets is the cell under the head. -/
def readCells? (left : List ℤ) : List (List Char) → Option (Tape ℤ)
  | [] => none
  | ('[' :: word) :: words => do
    guard (word.getLast? = some ']')
    let head ← Text.integer? word.dropLast
    let right ← words.mapM Text.integer?
    pure ⟨left, head, right⟩
  | word :: words => do
    let cell ← Text.integer? word
    readCells? (cell :: left) words

/-- The state that a text is labelled with, if it is, and what follows the label. -/
def readState? : List Char → Option (Option ℤ × List Char)
  | 'H' :: 'A' :: 'L' :: 'T' :: ':' :: ' ' :: text => some (some haltState, text)
  | 'q' :: label =>
    match label.dropWhile (· != ':') with
    | ':' :: ' ' :: text =>
      (Text.integer? (label.takeWhile (· != ':'))).map fun state => (some state, text)
    | _ => none
  | text => some (none, text)

/-- The tape and the state that a text shows. -/
def read? (text : String) : Option (Tape ℤ × Option ℤ) := do
  let (state, cells) ← readState? text.toList
  let tape ← readCells? [] (cells.splitOn ' ')
  pure (tape, state)

/-- A tape of integers as a tape of data. -/
abbrev ofIntegers (tape : Tape ℤ) : Tape Datum :=
  tape.map .int

/-- The datum of a state, or of none. -/
abbrev stateDatum (state : Option ℤ) : Datum :=
  state.elim .null .int

/-- Without colours the cell under the head stands in brackets and nothing else. -/
theorem headChars_false (state cell : Datum) :
    headChars false state cell = '[' :: (cellChars cell ++ [']']) := rfl

/-- A row of numerals is read back. -/
theorem mapM_integer?_cellChars (cells : List ℤ) :
    ((cells.map Datum.int).map cellChars).mapM Text.integer? = some cells := by
  rw [List.map_map]
  exact Text.mapM_map_eq_some integer?_cellChars cells

/-- **The words of a tape are read back.** -/
theorem readCells?_parts (tape : Tape ℤ) (state : Datum) :
    readCells? [] (parts false state tape.ofIntegers) = some tape := by
  obtain ⟨left, head, right⟩ := tape
  -- the words before the head are read from the far end of the left side on
  have hsteps : ∀ before near : List ℤ,
      readCells? near ((before.map Datum.int).map cellChars ++
        headChars false state (.int head) :: (right.map Datum.int).map cellChars) =
      some ⟨before.reverse ++ near, head, right⟩ := by
    intro before
    induction before with
    | nil =>
        intro near
        rw [headChars_false, List.map_nil, List.map_nil, List.nil_append, readCells?,
          List.getLast?_concat, List.dropLast_concat, integer?_cellChars, mapM_integer?_cellChars]
        rfl
    | cons cell before ih =>
        intro near
        have hbracket : ∀ word, cellChars (.int cell) ≠ '[' :: word := by
          intro word heq
          exact notMem_cellChars (by decide) (by decide) cell (heq ▸ List.mem_cons_self)
        rw [List.map_cons, List.map_cons, List.cons_append, readCells?.eq_3 _ _ _ hbracket,
          integer?_cellChars, List.reverse_cons, List.append_assoc, List.singleton_append,
          ← ih (cell :: near)]
        rfl
  have htape := hsteps left.reverse []
  rw [List.reverse_reverse, List.append_nil, List.map_reverse] at htape
  exact htape

/-- **A label is read back** from before a text without the letters that labels begin with. -/
theorem readState?_stateLabel (state : Option ℤ) {text : List Char} (hhalt : 'H' ∉ text)
    (hstate : 'q' ∉ text) :
    readState? (stateLabel (stateDatum state) ++ text) = some (state, text) := by
  cases state with
  | none =>
      refine readState?.eq_3 _ ?_ ?_
      · rintro rest rfl
        exact hhalt List.mem_cons_self
      · rintro rest rfl
        exact hstate List.mem_cons_self
  | some n =>
      change readState? ((if isHalt (.int n) then ['H', 'A', 'L', 'T'] else
        'q' :: cellChars (.int n)) ++ [':', ' '] ++ text) = _
      rw [isHalt_int]
      by_cases hn : n = haltState
      · rw [hn]
        rfl
      · have hcolon : ∀ c ∈ cellChars (.int n), (c != ':') = true := by
          intro c hc
          rw [bne_iff_ne]
          rintro rfl
          exact notMem_cellChars (by decide) (by decide) n hc
        rw [decide_eq_false hn, if_neg Bool.false_ne_true, List.append_assoc, List.cons_append,
          readState?, List.dropWhile_append_of_pos hcolon, List.takeWhile_append_of_pos hcolon]
        simp [integer?_cellChars]

/-! ### Texts of tapes -/

/-- A word of a tape is a numeral, or a numeral in brackets. -/
theorem exists_of_mem_parts {state : Datum} {tape : Tape ℤ} {word : List Char}
    (h : word ∈ parts false state tape.ofIntegers) :
    ∃ n, word = cellChars (.int n) ∨ word = '[' :: (cellChars (.int n) ++ [']']) := by
  rw [parts, List.mem_append, List.mem_cons] at h
  rcases h with hleft | rfl | hright
  · obtain ⟨cell, hmem, rfl⟩ := List.mem_map.mp hleft
    obtain ⟨n, -, rfl⟩ := List.mem_map.mp (List.mem_reverse.mp hmem)
    exact ⟨n, .inl rfl⟩
  · exact ⟨tape.head, .inr rfl⟩
  · obtain ⟨cell, hmem, rfl⟩ := List.mem_map.mp hright
    obtain ⟨n, -, rfl⟩ := List.mem_map.mp hmem
    exact ⟨n, .inl rfl⟩

/-- A character that is no digit, sign or bracket is in no word of a tape. -/
theorem notMem_of_mem_parts {c : Char} (hdigit : c.isDigit = false) (hmark : c ∉ ['-', '[', ']'])
    {state : Datum} {tape : Tape ℤ} {word : List Char}
    (hword : word ∈ parts false state tape.ofIntegers) : c ∉ word := by
  obtain ⟨hsign, hopen, hclose⟩ : c ≠ '-' ∧ c ≠ '[' ∧ c ≠ ']' := by simpa using hmark
  have hcell : ∀ n, c ∉ cellChars (.int n) := notMem_cellChars hdigit hsign
  obtain ⟨n, rfl | rfl⟩ := exists_of_mem_parts hword
  · exact hcell n
  · simp [hopen, hclose, hcell]

/-- What is in no word and no separator is not in the words joined by the separator. -/
theorem notMem_intercalate {c : Char} {separator : List Char} (hseparator : c ∉ separator)
    {words : List (List Char)} (h : ∀ word ∈ words, c ∉ word) :
    c ∉ separator.intercalate words := by
  induction words with
  | nil => exact List.not_mem_nil
  | cons word words ih =>
      have hword := h word List.mem_cons_self
      have hwords := ih fun other hother => h other (List.mem_cons_of_mem _ hother)
      cases words with
      | nil => rwa [List.intercalate_singleton]
      | cons next words =>
          rw [List.intercalate_cons_cons]
          simp [hword, hseparator, hwords]

/-- A character that is no digit, sign, bracket or space is not in the words of a tape. -/
theorem notMem_intercalate_parts {c : Char} (hdigit : c.isDigit = false)
    (hmark : c ∉ ['-', '[', ']', ' ']) (tape : Tape ℤ) (state : Datum) :
    c ∉ [' '].intercalate (parts false state tape.ofIntegers) := by
  have hspace : c ∉ [' '] := fun hmem => hmark (List.mem_append_right ['-', '[', ']'] hmem)
  have hword : c ∉ ['-', '[', ']'] := fun hmem => hmark (List.mem_append_left [' '] hmem)
  exact notMem_intercalate hspace fun word => notMem_of_mem_parts hdigit hword

/-- A character that is no digit or sign and none of the marks of a label is not in a label. -/
theorem notMem_stateLabel {c : Char} (hdigit : c.isDigit = false)
    (hmark : c ∉ ['-', 'H', 'A', 'L', 'T', 'q', ':', ' ']) (state : Option ℤ) :
    c ∉ stateLabel (stateDatum state) := by
  cases state with
  | none => exact List.not_mem_nil
  | some n =>
      change c ∉ (if isHalt (.int n) then ['H', 'A', 'L', 'T'] else 'q' :: cellChars (.int n)) ++
        [':', ' ']
      simp only [List.mem_cons, List.not_mem_nil, or_false, not_or] at hmark
      have hcell := notMem_cellChars hdigit hmark.1 n
      split_ifs <;> simp [hmark, hcell]

/-- **A text is read back.** -/
theorem read?_text (tape : Tape ℤ) (state : Option ℤ) :
    read? (tape.ofIntegers.text (stateDatum state) false) = some (tape, state) := by
  have hne : parts false (stateDatum state) tape.ofIntegers ≠ [] :=
    List.append_ne_nil_of_right_ne_nil _ (List.cons_ne_nil _ _)
  have hsplit : ([' '].intercalate (parts false (stateDatum state) tape.ofIntegers)).splitOn ' ' =
      parts false (stateDatum state) tape.ofIntegers :=
    List.splitOn_intercalate ' '
      (fun word hword => notMem_of_mem_parts (by decide) (by decide) hword) hne
  have hletter {c : Char} (hdigit : c.isDigit = false) (hmark : c ∉ ['-', '[', ']', ' ']) :=
    notMem_intercalate_parts hdigit hmark tape (stateDatum state)
  rw [read?, text, String.toList_ofList,
    readState?_stateLabel state (hletter (by decide) (by decide)) (hletter (by decide) (by decide))]
  change (readCells? [] (List.splitOn ' ' _) >>= fun tape => _) = _
  rw [hsplit, readCells?_parts]
  rfl

/-- **Colours do not show.** The text of a tape shows as the text without colours. -/
theorem showsAs_text (tape : Tape ℤ) (state : Option ℤ) (color : Bool) :
    Text.ShowsAs (tape.ofIntegers.text (stateDatum state) color).toList
      (tape.ofIntegers.text (stateDatum state) false).toList := by
  have hnumeral (n : ℤ) : '\x1b' ∉ cellChars (.int n) :=
    notMem_cellChars (by decide) (by decide) n
  have hcells (cells : List ℤ) : List.Forall₂ Text.ShowsAs ((cells.map Datum.int).map cellChars)
      ((cells.map Datum.int).map cellChars) := by
    rw [List.map_map, List.forall₂_map_left_iff, List.forall₂_map_right_iff, List.forall₂_same]
    exact fun n _ => Text.ShowsAs.of_not_mem (hnumeral n)
  have hhead : Text.ShowsAs (headChars color (stateDatum state) (.int tape.head))
      (headChars false (stateDatum state) (.int tape.head)) := by
    refine (Text.ShowsAs.of_not_mem ?_).apply _ color
    simp [hnumeral]
  have hparts : List.Forall₂ Text.ShowsAs (parts color (stateDatum state) tape.ofIntegers)
      (parts false (stateDatum state) tape.ofIntegers) := by
    rw [parts, parts, ofIntegers, map, ← List.map_reverse]
    exact List.rel_append (hcells _) (.cons hhead (hcells _))
  have hspace : Text.ShowsAs [' '] [' '] := Text.ShowsAs.of_not_mem (by decide)
  have hlabel := Text.ShowsAs.of_not_mem (notMem_stateLabel (c := '\x1b') rfl (by decide) state)
  rw [text, text, String.toList_ofList, String.toList_ofList]
  exact hlabel.append (hspace.intercalate hparts)

/-- **The text of a tape and a state determines both.** Let the cells of a tape be integers, and let
there be an integer for a state or none. The tape has a text, which can be read back to the tape and
the state, so no other tape and state have it. In colours it is the same text with escape sequences
in it. -/
theorem text_reads_back (tape : Tape ℤ) (state : Option ℤ) :
    let text (tape : Tape ℤ) (state : Option ℤ) : Bool → Except Fault String :=
      (AnyTape.ofDatum (tape.map .int).toDatum).text (state.elim .null .int)
    ∃ plain colored : String,
      text tape state false = .ok plain ∧ text tape state true = .ok colored ∧
      read? plain = some (tape, state) ∧ Text.plain colored.toList = plain.toList ∧
      ∀ tape' state', text tape' state' false = text tape state false ↔
        tape' = tape ∧ state' = state := by
  intro text
  have htext (tape : Tape ℤ) (state : Option ℤ) (color : Bool) :
      text tape state color = .ok (tape.ofIntegers.text (stateDatum state) color) := by
    change (AnyTape.ofDatum tape.ofIntegers.toDatum).text (stateDatum state) color = _
    rw [AnyTape.ofDatum, ofDatum?_toDatum]
    rfl
  refine ⟨_, _, htext tape state false, htext tape state true, read?_text tape state,
    (showsAs_text tape state true).plain_eq, fun tape' state' => ⟨fun heq => ?_, ?_⟩⟩
  · rw [htext, htext, Except.ok.injEq] at heq
    have hread := read?_text tape' state'
    rw [heq, read?_text, Option.some_inj, Prod.mk.injEq] at hread
    exact ⟨hread.1.symm, hread.2.symm⟩
  · rintro ⟨rfl, rfl⟩
    rfl

end Tape

end Metered
