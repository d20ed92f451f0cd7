import Metered.Automaton.Spacetime
import Metered.Proofs.BitRow

/-!
# Diagrams of Histories of Bits

The diagram of a history of rows of bits, which need not be generations of one another and
may have any lengths. Such a history always has a diagram, and the diagram is a rectangle
that shows every cell of every row.

## Main results

* `Spacetime.add_length_le_columns`, `Spacetime.columns_le`: no row of a history stands out of its
  columns, and there are no more of them than that;
* `Grid.ofDatum_ofBits`: the diagram of a history of bits;
* `Grid.getElem?_overwrite`: overwriting a stretch changes this stretch and nothing else;
* `Grid.entryAt?_diagram`: **the entries of a diagram** — row `i` of `n` rows is shown from
  column `n - 1 - i` on, with zeros on both sides.
-/

namespace Metered

/-! ### Columns -/

namespace Spacetime

variable {α β : Type}

/-- A history has as many placed rows as rows. -/
theorem length_placed (history : List (List α)) :
    (placed history).length = history.length := by
  rw [placed, starts, List.length_zip, List.length_map, List.length_range, Nat.min_self]

/-- Each row of a history stands further left than the row before it, by one column. -/
theorem getElem?_placed (history : List (List α)) {i : ℕ} (hi : i < history.length) :
    (placed history)[i]? = some (history.length - 1 - i, history[i]) := by
  rw [List.getElem?_eq_getElem (by rwa [length_placed])]
  simp [placed, starts]

/-- The places of the rows do not depend on their cells. -/
theorem placed_map (f : α → β) (history : List (List α)) :
    placed (history.map (List.map f)) = (placed history).map (Prod.map id (List.map f)) := by
  rw [placed, placed, starts, starts, List.length_map, List.zip_map_right]

/-- The width of several placed rows is not less than what it is counted from. -/
theorem le_foldl_width (rows : List (ℕ × List α)) (width : ℕ) :
    width ≤ rows.foldl (fun width row => max width (row.1 + row.2.length)) width := by
  induction rows generalizing width with
  | nil => exact le_refl width
  | cons row rows ih => exact le_trans (le_max_left _ _) (ih _)

/-- The width of several placed rows is not less than that of any of them. -/
theorem add_length_le_foldl_width {rows : List (ℕ × List α)} {row : ℕ × List α}
    (hrow : row ∈ rows) (width : ℕ) :
    row.1 + row.2.length ≤
      rows.foldl (fun width row => max width (row.1 + row.2.length)) width := by
  induction rows generalizing width with
  | nil => cases hrow
  | cons first rows ih =>
      rcases List.mem_cons.mp hrow with rfl | hrow
      · exact le_trans (le_max_right _ _) (le_foldl_width rows _)
      · exact ih hrow _

/-- **Room for every row.** No row of a history stands out of its columns. -/
theorem add_length_le_columns (history : List (List α)) {i : ℕ} (hi : i < history.length) :
    history.length - 1 - i + history[i].length ≤ columns history :=
  add_length_le_foldl_width (List.mem_of_getElem? (getElem?_placed history hi)) 0

/-- The width of several placed rows is not more than what bounds all of them. -/
theorem foldl_width_le {rows : List (ℕ × List α)} {width bound : ℕ} (hwidth : width ≤ bound)
    (hrows : ∀ row ∈ rows, row.1 + row.2.length ≤ bound) :
    rows.foldl (fun width row => max width (row.1 + row.2.length)) width ≤ bound := by
  induction rows generalizing width with
  | nil => exact hwidth
  | cons first rows ih =>
      have hfirst := hrows first List.mem_cons_self
      exact ih (max_le hwidth hfirst) fun row hrow => hrows row (List.mem_cons_of_mem first hrow)

/-- **No columns to spare.** A history has no more columns than its rows need. -/
theorem columns_le {history : List (List α)} {bound : ℕ}
    (h : ∀ (i : ℕ) (hi : i < history.length),
      history.length - 1 - i + history[i].length ≤ bound) : columns history ≤ bound := by
  refine foldl_width_le (Nat.zero_le bound) ?_
  intro row hrow
  obtain ⟨i, hi, rfl⟩ := List.mem_iff_getElem.mp hrow
  have hhistory : i < history.length := by rwa [length_placed] at hi
  have hplaced := getElem?_placed history hhistory
  rw [List.getElem?_eq_getElem hi, Option.some_inj] at hplaced
  rw [hplaced]
  exact h i hhistory

/-- The number of columns does not depend on the cells of the rows. -/
theorem columns_map (f : α → β) (history : List (List α)) :
    columns (history.map (List.map f)) = columns history := by
  rw [columns, columns, placed_map, List.foldl_map]
  simp only [Prod.map_fst, Prod.map_snd, id_eq, List.length_map]

/-- **Placed rows of bits.** What works out on every placed row of bits works out on a history
of rows of bits. -/
theorem mapM_placed_ofBits {γ : Type} {f : ℕ × List Datum → Except Fault γ}
    {g : ℕ × List Bool → γ}
    (h : ∀ shift bits, f (shift, Row.ofBits bits) = .ok (g (shift, bits)))
    (history : List (List Bool)) :
    (placed (history.map Row.ofBits)).mapM f = .ok ((placed history).map g) := by
  have hplaced : placed (history.map Row.ofBits) =
      (placed history).map (Prod.map id Row.ofBits) := placed_map Datum.ofBit history
  have hrow : f ∘ Prod.map id Row.ofBits = fun placed => pure (g placed) :=
    funext fun placed => h placed.1 placed.2
  rw [hplaced, List.mapM_map, hrow, List.mapM_pure]
  rfl

/-- The number of columns of a history of rows of bits. -/
theorem columns_ofBits (history : List (List Bool)) :
    columns (history.map Row.ofBits) = columns history :=
  columns_map Datum.ofBit history

end Spacetime

/-! ### Diagrams -/

namespace Grid

/-- The entry of a grid in a row and a column, if it has them. -/
def entryAt? (grid : Grid) (i c : ℕ) : Option ℕ :=
  grid.rows[i]?.bind (·[c]?)

/-- The diagram of a history of bits. -/
def diagram (history : List (List Bool)) : Grid :=
  ⟨Spacetime.columns history, (Spacetime.placed history).map fun placed =>
    row (Spacetime.columns history) placed.1 (placed.2.map Bool.toNat)⟩

/-- A bit fits into a byte. -/
theorem byte_ofBit (bit : Bool) : byte (.ofBit bit) = .ok bit.toNat := by
  cases bit <;> rfl

/-- A row of bits is a row of bytes. -/
theorem bytes_ofBits (bits : List Bool) : bytes (Row.ofBits bits) = .ok (bits.map Bool.toNat) := by
  have hflat : ((Row.ofBits bits).any isNested) = false := by
    rw [Row.ofBits, List.any_map, List.any_eq_false]
    intro bit _
    exact Bool.eq_false_iff.mp rfl
  have hbytes : byte ∘ Datum.ofBit = fun bit => pure bit.toNat := funext byte_ofBit
  rw [bytes, if_neg (Bool.eq_false_iff.mp hflat), Row.ofBits, List.mapM_map, hbytes,
    List.mapM_pure]
  rfl

/-- A history of bits has a diagram. -/
theorem ofHistory_ofBits (history : List (List Bool)) :
    ofHistory (history.map Row.ofBits) = .ok (diagram history) := by
  rw [ofHistory, Spacetime.columns_ofBits, Spacetime.mapM_placed_ofBits]
  · rfl
  · intro shift bits
    dsimp only
    rw [bytes_ofBits]
    rfl

/-- A history of bits that is given as rows of data has a diagram. -/
theorem ofDatum_ofBits (history : List (List Bool)) :
    ofDatum (.tuple ((history.map Row.ofBits).map .tuple)) = .ok (diagram history) := by
  have hcells : cellsOf ∘ Datum.tuple = pure := rfl
  have hrows : ((history.map Row.ofBits).map Datum.tuple).mapM cellsOf =
      .ok (history.map Row.ofBits) := by
    rw [List.mapM_map, hcells, List.mapM_pure, List.map_id']
    rfl
  rw [← ofHistory_ofBits]
  exact congrArg (· >>= ofHistory) hrows

/-- Overwriting keeps the length of what it is done to. -/
theorem length_overwrite {ground cells : List ℕ} {start : ℕ}
    (h : start + cells.length ≤ ground.length) :
    (overwrite ground start cells).length = ground.length := by
  simp only [overwrite, List.length_append, List.length_take, List.length_drop]
  omega

/-- **Overwriting** a stretch changes this stretch and nothing else. -/
theorem getElem?_overwrite {ground cells : List ℕ} {start : ℕ}
    (h : start + cells.length ≤ ground.length) (c : ℕ) :
    (overwrite ground start cells)[c]? =
      if start ≤ c ∧ c < start + cells.length then cells[c - start]? else ground[c]? := by
  have hstart : (ground.take start).length = start := by
    rw [List.length_take]
    omega
  rw [overwrite, List.append_assoc, List.getElem?_append, List.getElem?_append, hstart]
  by_cases hbefore : c < start
  · rw [if_pos hbefore, if_neg (by omega), List.getElem?_take_of_lt hbefore]
  · rw [if_neg hbefore]
    by_cases hwithin : c - start < cells.length
    · rw [if_pos hwithin, if_pos (by omega)]
    · have hcolumn : start + cells.length + (c - start - cells.length) = c := by omega
      rw [if_neg hwithin, if_neg (by omega), List.getElem?_drop, hcolumn]

/-- A row of a grid is as long as the grid is wide. -/
theorem length_row {width shift : ℕ} {cells : List ℕ} (h : shift + cells.length ≤ width) :
    (row width shift cells).length = width := by
  rw [row_eq_overwrite h, length_overwrite (by rwa [List.length_replicate]), List.length_replicate]

/-- What a row of a grid shows in a column. -/
theorem getElem?_row {width shift : ℕ} {bits : List Bool} (h : shift + bits.length ≤ width)
    {c : ℕ} (hc : c < width) :
    (row width shift (bits.map Bool.toNat))[c]? = some (Row.cell bits (c - shift)).toNat := by
  have hfits : shift + (bits.map Bool.toNat).length ≤ width := by rwa [List.length_map]
  rw [row_eq_overwrite hfits, getElem?_overwrite (by rwa [List.length_replicate]), List.length_map,
    List.getElem?_replicate_of_lt hc]
  split_ifs with hstretch
  · have hcolumn : (c : ℤ) - shift = (c - shift : ℕ) := by omega
    rw [hcolumn, List.getElem?_map, Row.getElem?_eq_cell bits (by omega)]
    rfl
  · by_cases hleft : c < shift
    · rw [Row.cell_of_neg _ (by omega)]
      rfl
    · rw [Row.cell_of_length_le _ (by omega)]
      rfl

/-- A diagram has a row for each row of the history. -/
theorem length_diagram (history : List (List Bool)) :
    (diagram history).rows.length = history.length := by
  rw [diagram, List.length_map, Spacetime.length_placed]

/-- The rows of a diagram of a history. -/
theorem getElem?_diagram (history : List (List Bool)) {i : ℕ} (hi : i < history.length) :
    (diagram history).rows[i]? = some (row (Spacetime.columns history)
      (history.length - 1 - i) (history[i].map Bool.toNat)) := by
  rw [diagram, List.getElem?_map, Spacetime.getElem?_placed history hi]
  rfl

/-- Every row of a diagram shows a row of the history. -/
theorem exists_of_mem_diagram {history : List (List Bool)} {cells : List ℕ}
    (h : cells ∈ (diagram history).rows) :
    ∃ (i : ℕ) (hi : i < history.length), cells = row (Spacetime.columns history)
      (history.length - 1 - i) (history[i].map Bool.toNat) := by
  obtain ⟨i, hi, rfl⟩ := List.mem_iff_getElem.mp h
  rw [length_diagram] at hi
  have hrow := getElem?_diagram history hi
  rw [List.getElem?_eq_getElem (by rwa [length_diagram]), Option.some_inj] at hrow
  exact ⟨i, hi, hrow⟩

/-- **A diagram is a rectangle.** All its rows are as long as it is wide. -/
theorem length_of_mem_diagram {history : List (List Bool)} {cells : List ℕ}
    (h : cells ∈ (diagram history).rows) : cells.length = (diagram history).width := by
  obtain ⟨i, hi, rfl⟩ := exists_of_mem_diagram h
  exact length_row (by rw [List.length_map]; exact Spacetime.add_length_le_columns history hi)

/-- **The entries of a diagram.** Row `i` of `n` rows is shown from column `n - 1 - i` on,
with zeros on both sides. -/
theorem entryAt?_diagram (history : List (List Bool)) {i c : ℕ} (hi : i < history.length)
    (hc : c < (diagram history).width) :
    (diagram history).entryAt? i c =
      some (Row.cell history[i] (c - (history.length - 1 - i : ℕ))).toNat := by
  rw [entryAt?, getElem?_diagram history hi, Option.bind_some]
  exact getElem?_row (Spacetime.add_length_le_columns history hi) hc

end Grid

end Metered
