import Metered.Automaton.Picture
import Metered.Proofs.Diagram

/-!
# Pictures and Diagrams

The picture of a history and its diagram are laid out apart from one another: the one pads its
lines with spaces, the other puts rows into columns of zeros. On a history of bits both show
the same. The picture has a character for each entry of the diagram, a full block for a one
and a space for a zero, whatever lengths the rows have.

A picture in colours holds escape sequences between its characters, which take up no column.
`Text.plain` removes them, wherever they stand, and what is left is the picture without colours.

## Main results

* `Text.plain_escapeSequence`: **removal** — an escape sequence is removed from before any text;
* `Picture.lines_ofBits`: the lines of the picture of a history of bits;
* `Picture.drawn_false`: without colours the lines are the rows of the diagram, drawn;
* `Picture.text_eq_diagram`: the text of a picture, split into lines, shows the diagram.
-/

namespace Metered

/-! ### Text without escape sequences -/

namespace Text

/-- What follows the escape sequence that a text begins with, if it begins with one: the escape
character and a bracket, one or more digits, and the letter that ends them. -/
def afterEscape? : List Char → Option (List Char)
  | '\x1b' :: '[' :: rest =>
    match rest.takeWhile Char.isDigit, rest.dropWhile Char.isDigit with
    | _ :: _, 'm' :: after => some after
    | _, _ => none
  | _ => none

/-- What follows an escape sequence is shorter than the text. -/
theorem length_lt_of_afterEscape? {text after : List Char} (h : afterEscape? text = some after) :
    after.length < text.length := by
  rw [afterEscape?.eq_def] at h
  split at h
  · rename_i rest
    split at h
    · rename_i hafter
      obtain rfl := Option.some.inj h
      have hle := (List.dropWhile_suffix Char.isDigit (l := rest)).length_le
      rw [hafter, List.length_cons] at hle
      rw [List.length_cons, List.length_cons]
      omega
    · cases h
  · cases h

/-- A text without the escape sequences in it. -/
def plain : List Char → List Char
  | [] => []
  | c :: rest =>
    match h : afterEscape? (c :: rest) with
    | some after =>
      have := length_lt_of_afterEscape? h
      plain after
    | none => c :: plain rest
termination_by text => text.length
decreasing_by
  · exact this
  · exact Nat.lt_succ_self rest.length

/-- Of a text that begins with an escape sequence only what follows it is left. -/
theorem plain_of_some {text after : List Char} (h : afterEscape? text = some after) :
    plain text = plain after := by
  cases text with
  | nil => cases h
  | cons c rest =>
      rw [plain]
      split
      · rename_i other hother
        obtain rfl := Option.some.inj (hother.symm.trans h)
        rfl
      · rename_i hnone
        cases hnone.symm.trans h

/-- A character that does not begin an escape sequence is kept. -/
theorem plain_cons {c : Char} (h : c ≠ '\x1b') (rest : List Char) :
    plain (c :: rest) = c :: plain rest := by
  rw [plain]
  split
  · rename_i after hafter
    rw [afterEscape?.eq_def] at hafter
    split at hafter
    · rename_i heq
      exact absurd (List.cons.inj heq).1 h
    · cases hafter
  · rfl

/-- **Removal.** An escape sequence is removed from before any text. -/
theorem plain_escapeSequence (code : ℕ) (rest : List Char) :
    plain (escapeSequence code ++ rest) = plain rest := by
  have hdigits : ∀ c ∈ Nat.toDigits 10 code, c.isDigit = true :=
    fun c hc => Nat.isDigit_of_mem_toDigits (by decide) (by decide) hc
  have htext : escapeSequence code ++ rest =
      '\x1b' :: '[' :: (Nat.toDigits 10 code ++ 'm' :: rest) := by
    simp [escapeSequence]
  obtain ⟨first, others, hcode⟩ : ∃ first others, Nat.toDigits 10 code = first :: others :=
    List.exists_cons_of_ne_nil Nat.toDigits_ne_nil
  apply plain_of_some
  rw [htext, afterEscape?, List.takeWhile_append_of_pos hdigits,
    List.dropWhile_append_of_pos hdigits, hcode]
  rfl

/-- A text shows as another one if removing the escape sequences leaves that one, and nothing
of what follows is affected. -/
def ShowsAs (text shown : List Char) : Prop :=
  ∀ rest, plain (text ++ rest) = shown ++ plain rest

namespace ShowsAs

variable {text text' shown shown' : List Char}

/-- What a text shows as is left of it. -/
theorem plain_eq (h : ShowsAs text shown) : plain text = shown := by
  have hnil := h []
  rwa [List.append_nil, plain, List.append_nil] at hnil

/-- A text without the escape character shows as itself. -/
theorem of_not_mem (h : '\x1b' ∉ text) : ShowsAs text text := by
  intro rest
  induction text with
  | nil => rfl
  | cons c text ih =>
      have hc : c ≠ '\x1b' := fun hc => h (hc ▸ List.mem_cons_self)
      rw [List.cons_append, plain_cons hc, ih (fun hmem => h (List.mem_cons_of_mem _ hmem)),
        List.cons_append]

/-- Two texts in a row show as what they show as in a row. -/
theorem append (h : ShowsAs text shown) (h' : ShowsAs text' shown') :
    ShowsAs (text ++ text') (shown ++ shown') := by
  intro rest
  rw [List.append_assoc, h, h', List.append_assoc]

/-- The codes of a style do not show. -/
theorem codes (style : Style) : ShowsAs (style.flatMap escapeSequence) [] := by
  intro rest
  induction style with
  | nil => rfl
  | cons code style ih =>
      rw [List.flatMap_cons, List.append_assoc, plain_escapeSequence, ih]

/-- Text in a style shows as the text, whether styles are wanted or not. -/
theorem apply (h : ShowsAs text shown) (style : Style) (wanted : Bool) :
    ShowsAs (style.apply wanted text) shown := by
  cases wanted with
  | false => exact h
  | true =>
      have hall := ((codes style).append h).append (codes [0])
      rwa [List.nil_append, List.append_nil] at hall

/-- Texts joined by a separator show as what they show as, joined by it. -/
theorem intercalate {separator : List Char} (hsep : ShowsAs separator separator)
    {texts shown : List (List Char)} (h : List.Forall₂ ShowsAs texts shown) :
    ShowsAs (separator.intercalate texts) (separator.intercalate shown) := by
  induction h with
  | nil => exact fun _ => rfl
  | cons hfirst hrest ih =>
      cases hrest with
      | nil => simpa using hfirst
      | cons hsecond hrest =>
          rw [List.intercalate_cons_cons, List.intercalate_cons_cons]
          exact (hfirst.append hsep).append ih

end ShowsAs

end Text

/-! ### Pictures of histories of bits -/

namespace Picture

/-- A bit as it is drawn. -/
def drawnCell (color : Bool) (bit : Bool) : List Char :=
  (style bit).apply color [glyph bit]

/-- A placed row of bits as a line of a picture: as many spaces as columns before it, its cells,
and spaces up to a width. -/
def drawnRow (color : Bool) (width : ℕ) (placed : ℕ × List Bool) : List Char :=
  List.replicate placed.1 ' ' ++ (placed.2.map (drawnCell color)).flatten ++
    List.replicate (width - placed.1 - placed.2.length) ' '

/-- The lines of the picture of a history of bits. -/
def drawn (color : Bool) (history : List (List Bool)) : List (List Char) :=
  (Spacetime.placed history).map (drawnRow color (Spacetime.columns history))

/-- A bit is drawn. -/
theorem cell_ofBit (color bit : Bool) :
    cell color (.ofBit bit) = .ok (drawnCell color bit) := by
  cases bit <;> rfl

/-- A row of bits is drawn after as many spaces as there are columns before it. -/
theorem line_ofBits (color : Bool) (shift : ℕ) (bits : List Bool) :
    line color (shift + bits.length : ℕ) (Row.ofBits bits) =
      .ok (List.replicate shift ' ' ++ (bits.map (drawnCell color)).flatten) := by
  have hcells : cell color ∘ Datum.ofBit = fun bit => pure (drawnCell color bit) :=
    funext (cell_ofBit color)
  have hwidth : (((shift + bits.length : ℕ) : ℤ) - (Row.ofBits bits).length).toNat = shift := by
    rw [Row.ofBits, List.length_map]
    omega
  rw [line, hwidth, Row.ofBits, List.mapM_map, hcells, List.mapM_pure]
  rfl

/-- **The picture of a history of bits** has a line for each row. -/
theorem lines_ofBits (color : Bool) (history : List (List Bool)) :
    lines color (history.map Row.ofBits) = .ok (drawn color history) := by
  rw [lines, Spacetime.columns_ofBits, Spacetime.mapM_placed_ofBits]
  · rfl
  · intro shift bits
    have hlength : (Row.ofBits bits).length = bits.length := List.length_map _
    dsimp only
    rw [hlength, line_ofBits]
    rfl

/-- The text of a history of bits that is given as rows of data. -/
theorem historyText_ofBits (color : Bool) (history : List (List Bool)) :
    historyText color (.tuple ((history.map Row.ofBits).map .tuple)) =
      .ok (String.ofList (['\n'].intercalate (drawn color history))) := by
  have hrows : Spacetime.ofDatum (.tuple ((history.map Row.ofBits).map .tuple)) =
      .ok (history.map Row.ofBits) := by
    have hcount : Datum.countedItems ∘ Datum.tuple = pure := rfl
    change ((history.map Row.ofBits).map Datum.tuple).mapM Datum.countedItems = _
    rw [List.mapM_map, hcount, List.mapM_pure, List.map_id']
    rfl
  rw [historyText, hrows]
  change text color (history.map Row.ofBits) = _
  rw [text, lines_ofBits]
  rfl

/-! ### Both layouts -/

/-- **Without colours the picture is the diagram, drawn**: its lines have a character for each
entry of the diagram. -/
theorem drawn_false (history : List (List Bool)) :
    drawn false history =
      (Grid.diagram history).rows.map (List.map fun entry => glyph (entry == 1)) := by
  have hcells : ∀ bits : List Bool, (bits.map (drawnCell false)).flatten =
      (bits.map Bool.toNat).map fun entry => glyph (entry == 1) := by
    intro bits
    induction bits with
    | nil => rfl
    | cons bit bits ih =>
        rw [List.map_cons, List.flatten_cons, ih]
        cases bit <;> rfl
  rw [drawn, Grid.diagram, List.map_map]
  refine List.map_congr_left fun placed _ => ?_
  rw [drawnRow, hcells, Function.comp_apply, Grid.row, List.map_append, List.map_append,
    List.map_replicate, List.map_replicate, List.length_map]
  rfl

/-- No line of a picture without colours is broken. -/
theorem not_mem_of_mem_drawn {history : List (List Bool)} {drawnLine : List Char}
    (h : drawnLine ∈ drawn false history) : '\n' ∉ drawnLine := by
  rw [drawn_false] at h
  obtain ⟨cells, -, rfl⟩ := List.mem_map.mp h
  have hglyph : ∀ live, glyph live ≠ '\n' := by decide
  intro hmem
  obtain ⟨entry, -, heq⟩ := List.mem_map.mp hmem
  exact hglyph _ heq

/-- **Colours do not show.** Each line of a picture shows as the line without colours. -/
theorem showsAs_drawn (color : Bool) (history : List (List Bool)) :
    List.Forall₂ Text.ShowsAs (drawn color history) (drawn false history) := by
  have hcell : ∀ bit, Text.ShowsAs (drawnCell color bit) (drawnCell false bit) := by
    intro bit
    have hglyph : '\x1b' ∉ [glyph bit] := by cases bit <;> decide
    exact (Text.ShowsAs.of_not_mem hglyph).apply _ color
  have hspaces : ∀ n, Text.ShowsAs (List.replicate n ' ') (List.replicate n ' ') := by
    intro n
    refine Text.ShowsAs.of_not_mem fun hmem => ?_
    exact absurd (List.eq_of_mem_replicate hmem) (by decide)
  rw [drawn, drawn, List.forall₂_map_left_iff, List.forall₂_map_right_iff, List.forall₂_same]
  intro placed _
  refine ((hspaces _).append ?_).append (hspaces _)
  induction placed.2 with
  | nil => exact fun _ => rfl
  | cons bit bits ih => exact (hcell bit).append ih

/-- The character of a picture in a line and a column, if it has them. -/
def charAt? (lines : List (List Char)) (i c : ℕ) : Option Char :=
  lines[i]?.bind (·[c]?)

/-- **The characters of a picture**: line `i` of `n` lines shows its row from column
`n - 1 - i` on, with spaces on both sides. -/
theorem charAt?_drawn (history : List (List Bool)) {i c : ℕ} (hi : i < history.length)
    (hc : c < (Grid.diagram history).width) :
    charAt? (drawn false history) i c =
      some (glyph (Row.cell history[i] (c - (history.length - 1 - i : ℕ)))) := by
  have hentry := Grid.entryAt?_diagram history hi hc
  rw [Grid.entryAt?, Option.bind_eq_some_iff] at hentry
  obtain ⟨cells, hcells, hcell⟩ := hentry
  rw [charAt?, drawn_false, List.getElem?_map, hcells, Option.map_some, Option.bind_some,
    List.getElem?_map, hcell]
  cases Row.cell history[i] (c - (history.length - 1 - i : ℕ)) <;> rfl

/-- The lines of the text of a picture without colours. -/
theorem splitOn_drawn {history : List (List Bool)} (h : history ≠ []) :
    (['\n'].intercalate (drawn false history)).splitOn '\n' = drawn false history := by
  have hne : drawn false history ≠ [] := by
    rw [← List.length_pos_iff, drawn_false, List.length_map, Grid.length_diagram]
    exact List.length_pos_iff.mpr h
  exact List.splitOn_intercalate '\n' (fun line hline => not_mem_of_mem_drawn hline) hne

/-- **The picture of a history and its diagram show the same.** A history of rows of bits, of
any lengths, has a picture and a diagram. The text of the picture has as many lines as there
are rows, and every line as many characters as the diagram has columns. A character is a full
block where the entry of the diagram is one, and a space where it is zero. Cell `j` of row `i`
of `n` rows stands in column `n - 1 - i + j` of both, and all other columns of the row are
blank in both. A picture in colours is the same text with escape sequences in it. -/
theorem text_eq_diagram {history : List (List Bool)} (h : history ≠ []) :
    let given : Datum := .tuple ((history.map Row.ofBits).map .tuple)
    let n := history.length
    ∃ (text colored : String) (grid : Grid),
      historyText false given = .ok text ∧ historyText true given = .ok colored ∧
      Grid.ofDatum given = .ok grid ∧
      Text.plain colored.toList = text.toList ∧
      let lines := text.toList.splitOn '\n'
      lines.length = n ∧ grid.rows.length = n ∧
      (∀ line ∈ lines, line.length = grid.width) ∧
      (∀ cells ∈ grid.rows, cells.length = grid.width) ∧
      ∀ (i : ℕ) (hi : i < n),
        (∀ c < grid.width,
          (charAt? lines i c = some '\u2588' ↔ grid.entryAt? i c = some 1) ∧
          (charAt? lines i c = some ' ' ↔ grid.entryAt? i c = some 0)) ∧
        (∀ (j : ℕ) (hj : j < history[i].length),
          charAt? lines i (n - 1 - i + j) = some (glyph history[i][j]) ∧
          grid.entryAt? i (n - 1 - i + j) = some history[i][j].toNat) ∧
        ∀ c < grid.width, (¬ ∃ j < history[i].length, c = n - 1 - i + j) →
          charAt? lines i c = some ' ' ∧ grid.entryAt? i c = some 0 := by
  intro given n
  refine ⟨_, _, Grid.diagram history, historyText_ofBits false history,
    historyText_ofBits true history, Grid.ofDatum_ofBits history, ?_, ?_⟩
  · have hbreak : Text.ShowsAs ['\n'] ['\n'] := Text.ShowsAs.of_not_mem (by decide)
    rw [String.toList_ofList, String.toList_ofList]
    exact (hbreak.intercalate (showsAs_drawn true history)).plain_eq
  rw [String.toList_ofList, splitOn_drawn h]
  have hlines : (drawn false history).length = n := by
    rw [drawn_false, List.length_map, Grid.length_diagram]
  refine ⟨hlines, Grid.length_diagram history, ?_, fun _ => Grid.length_of_mem_diagram, ?_⟩
  · intro line hline
    rw [drawn_false] at hline
    obtain ⟨cells, hcells, rfl⟩ := List.mem_map.mp hline
    rw [List.length_map, Grid.length_of_mem_diagram hcells]
  intro i hi
  refine ⟨fun c hc => ?_, fun j hj => ?_, fun c hc hout => ?_⟩
  · rw [charAt?_drawn history hi hc, Grid.entryAt?_diagram history hi hc]
    cases Row.cell history[i] (c - (history.length - 1 - i : ℕ)) <;> decide
  · have hroom : history.length - 1 - i + history[i].length ≤ (Grid.diagram history).width :=
      Spacetime.add_length_le_columns history hi
    have hc : n - 1 - i + j < (Grid.diagram history).width := by omega
    have hj' : ((n - 1 - i + j : ℕ) : ℤ) - (history.length - 1 - i : ℕ) = j := by omega
    rw [charAt?_drawn history hi hc, Grid.entryAt?_diagram history hi hc, hj', Row.cell_natCast,
      List.getD_eq_getElem _ _ hj]
    exact ⟨rfl, rfl⟩
  · have hblank : Row.cell history[i] (c - (history.length - 1 - i : ℕ)) = false := by
      rw [Bool.eq_false_iff]
      intro hlive
      obtain ⟨j, hj, hcolumn⟩ := Row.exists_of_cell hlive
      exact hout ⟨j, hj, by omega⟩
    rw [charAt?_drawn history hi hc, Grid.entryAt?_diagram history hi hc, hblank]
    exact ⟨rfl, rfl⟩

/-- A history whose first row reaches furthest to the right, and whose second row is empty. -/
def ragged : List (List Bool) :=
  [[true, false, true, true], [], [true]]

/-- The ragged history is drawn in three lines of six characters. -/
theorem ragged_drawn :
    ragged ≠ [] ∧
    let given : Datum := .tuple ((ragged.map Row.ofBits).map .tuple)
    ∃ text colored : String,
      historyText false given = .ok text ∧ historyText true given = .ok colored ∧
      Text.plain colored.toList = text.toList ∧
      let lines := text.toList.splitOn '\n'
      lines.length = 3 ∧ (∀ line ∈ lines, line.length = 6) ∧
      charAt? lines 0 5 = some '\u2588' ∧ charAt? lines 1 4 = some ' ' := by
  have hne : ragged ≠ [] := by decide
  obtain ⟨text, colored, grid, htext, hcolored, hgrid, hplain, hlines, -, hwidth, -, hshown⟩ :=
    text_eq_diagram hne
  obtain rfl : Grid.diagram ragged = grid :=
    Except.ok.inj ((Grid.ofDatum_ofBits ragged).symm.trans hgrid)
  obtain ⟨-, hcells, -⟩ := hshown 0 (by decide)
  obtain ⟨-, -, hblank⟩ := hshown 1 (by decide)
  have hout : ¬ ∃ j < ragged[1].length, 4 = 3 - 1 - 1 + j := by decide
  exact ⟨hne, text, colored, htext, hcolored, hplain, hlines, hwidth,
    (hcells 3 (by decide)).1, (hblank 4 (by decide) hout).1⟩

end Picture

end Metered
