import Metered.Proofs.Line

/-!
# The Edges of a History

Every generation records one cell more on the left than the one before it, whether that cell is
live or not. It comes from the first cell before it alone, so a row that begins with a live cell
goes on to do so under a rule that takes life to the left, and under any other rule every row but
the first begins with a dead cell.

On the right a rule either takes life one cell further each time, and a row is as live at its end
as the one before it, or it records no cell more. Then the last cell stays in its column; it comes
from the last two cells before it, of which the first may lie outside of a row of one cell.

## Main results

* `first_successorBits`, `last_successorBits`: the two edges of the next generation;
* `first_generation_of_grows`, `first_generation_of_not_grows`, `last_generation_of_keeps`: the
  edges of every generation;
* `edges_are_tight`: the rows of a history at their edges, and the diagram of rule 110.
-/

namespace Metered

/-! ### The ends of a row -/

namespace Row

/-- What a row that is not empty begins with. -/
theorem head?_eq_some_iff {row : List Bool} (h : row ≠ []) {bit : Bool} :
    row.head? = some bit ↔ cell row 0 = bit := by
  cases row with
  | nil => exact absurd rfl h
  | cons first rest => exact Option.some_inj

/-- What a row that is not empty ends with. -/
theorem getLast?_eq_some_iff {row : List Bool} (h : row ≠ []) {bit : Bool} :
    row.getLast? = some bit ↔ cell row (row.length - 1) = bit := by
  have hpos : 0 < row.length := List.length_pos_iff.mpr h
  have hindex : (row.length : ℤ) - 1 = (row.length - 1 : ℕ) := by omega
  rw [List.getLast?_eq_getElem?, getElem?_eq_cell _ (by omega), hindex, Option.some_inj]

end Row

namespace Rule

variable (rule : Rule)

/-! ### One generation -/

/-- **The left edge.** The first cell of the next generation comes from the first cell. -/
theorem first_successorBits (row : List Bool) :
    Row.cell (rule.successorBits row) 0 = rule.output false false (Row.cell row 0) := by
  rw [cell_successorBits, Row.cell_of_neg _ (by decide), Row.cell_of_neg _ (by decide)]

/-- **The right edge.** Under a rule that grows to the right the next generation ends like the row;
otherwise its last cell comes from the last two cells. -/
theorem last_successorBits {row : List Bool} (h : row ≠ []) :
    Row.cell (rule.successorBits row) ((rule.successorBits row).length - 1) =
      if rule.growsRight then Row.cell row (row.length - 1)
      else rule.output (Row.cell row (row.length - 2)) (Row.cell row (row.length - 1)) false := by
  have hpast {j : ℤ} (hj : row.length ≤ j) : Row.cell row j = false := Row.cell_of_length_le row hj
  rw [length_successorBits, if_neg h, growth, cell_successorBits]
  split_ifs with hright
  · have hlast : ((row.length + 2 : ℕ) : ℤ) - 1 - 2 = row.length - 1 := by omega
    have hnext : Row.cell row ((row.length + 2 : ℕ) - 1 - 1) = false := hpast (by omega)
    have hafter : Row.cell row ((row.length + 2 : ℕ) - 1) = false := hpast (by omega)
    rw [hlast, hnext, hafter]
    cases Row.cell row (row.length - 1) with
    | false => exact rule.output_zeros
    | true => exact hright
  · have hprev : ((row.length + 1 : ℕ) : ℤ) - 1 - 2 = row.length - 2 := by omega
    have hlast : ((row.length + 1 : ℕ) : ℤ) - 1 - 1 = row.length - 1 := by omega
    have hafter : Row.cell row ((row.length + 1 : ℕ) - 1) = false := hpast (by omega)
    rw [hprev, hlast, hafter]

/-! ### All generations -/

variable {rule} {start : List Bool}

/-- The generations of a row that is not empty are not empty. -/
theorem generation_ne_nil (h : start ≠ []) (i : ℕ) : rule.generation start i ≠ [] := by
  have hlength := rule.length_generation start i
  have hpos : 0 < start.length := List.length_pos_iff.mpr h
  rw [if_neg h] at hlength
  rw [← List.length_pos_iff]
  omega

/-- Under a rule that takes life to the left, every generation of a row that begins with a live
cell does so. -/
theorem first_generation_of_grows (hgrows : rule.output false false true = true)
    (hstart : Row.cell start 0 = true) (i : ℕ) : Row.cell (rule.generation start i) 0 = true := by
  induction i with
  | zero => exact hstart
  | succ i ih => rw [generation_succ, first_successorBits, ih, hgrows]

/-- Under any other rule every generation but the first begins with a dead cell. -/
theorem first_generation_of_not_grows (hgrows : rule.output false false true = false) (i : ℕ) :
    Row.cell (rule.generation start (i + 1)) 0 = false := by
  rw [generation_succ, first_successorBits]
  cases Row.cell (rule.generation start i) 0 with
  | false => exact rule.output_zeros
  | true => exact hgrows

/-- Under a rule that takes life to the right, and under one that keeps a live cell before a dead
one alive, every generation of a row that ends with a live cell does so. -/
theorem last_generation_of_keeps
    (hkeeps : rule.output true false false = true ∨
      ∀ prev, rule.output prev true false = true)
    (hne : start ≠ []) (hstart : Row.cell start (start.length - 1) = true) (i : ℕ) :
    Row.cell (rule.generation start i) ((rule.generation start i).length - 1) = true := by
  induction i with
  | zero => exact hstart
  | succ i ih =>
      rw [generation_succ, last_successorBits rule (generation_ne_nil hne i), ih]
      split_ifs with hright
      · rfl
      · rcases hkeeps with hgrows | hkeeps
        · exact absurd hgrows hright
        · exact hkeeps _

/-! ### The diagram of rule 110 -/

/-- An entry of the diagram of a history. -/
theorem entryAt?_generations (hne : start ≠ []) {n i c : ℕ} (hi : i ≤ n)
    (hc : c < start.length + n * rule.growth) :
    (Grid.diagram (rule.generations start (n + 1))).entryAt? i c =
      some (Row.cell (rule.generation start i) (c - (n - i : ℕ))).toNat := by
  have hlength := rule.length_generations start (n + 1)
  have hwidth : (Grid.diagram (rule.generations start (n + 1))).width =
      start.length + n * rule.growth := rule.columns_generations hne n
  have hshift : (rule.generations start (n + 1)).length - 1 - i = n - i := by omega
  rw [Grid.entryAt?_diagram _ (by omega) (by omega), getElem_generations, hshift]

/-- **The edges of the diagram of rule 110.** If the row at the start begins and ends with live
cells, the first live cell of a row of the diagram stands one column further left than that of the
row before, and the column of the last cell of the first row is live. -/
theorem entryAt?_rule110 (hne : start ≠ []) (hfirst : Row.cell start 0 = true)
    (hlast : Row.cell start (start.length - 1) = true) {n i : ℕ} (hi : i < n) :
    let grid := Grid.diagram (rule110.generations start n)
    (∀ c < n - 1 - i, grid.entryAt? i c = some 0) ∧
      grid.entryAt? i (n - 1 - i) = some 1 ∧
      grid.entryAt? i (n - 1 + (start.length - 1)) = some 1 := by
  intro grid
  obtain ⟨m, rfl⟩ : ∃ m, n = m + 1 := ⟨n - 1, by omega⟩
  have hpos : 0 < start.length := List.length_pos_iff.mpr hne
  have hgrowth : rule110.growth = 1 := rfl
  have hlength := rule110.length_generation start i
  rw [if_neg hne, hgrowth] at hlength
  have hentry {c : ℕ} (hc : c < start.length + m) : grid.entryAt? i c =
      some (Row.cell (rule110.generation start i) (c - (m - i : ℕ))).toNat :=
    entryAt?_generations hne (by omega) (by rwa [hgrowth, Nat.mul_one])
  refine ⟨fun c hc => ?_, ?_, ?_⟩
  · rw [hentry (by omega), Row.cell_of_neg _ (by omega)]
    rfl
  · have hindex : ((m + 1 - 1 - i : ℕ) : ℤ) - (m - i : ℕ) = 0 := by omega
    rw [hentry (by omega), hindex, first_generation_of_grows rfl hfirst i]
    rfl
  · have hindex : ((m + 1 - 1 + (start.length - 1) : ℕ) : ℤ) - (m - i : ℕ) =
        (rule110.generation start i).length - 1 := by omega
    have hkeeps : ∀ prev, rule110.output prev true false = true := by decide
    rw [hentry (by omega), hindex, last_generation_of_keeps (.inr hkeeps) hne hlast i]
    rfl

/-- **The edges of a history are tight.** Let a row that is not empty have a history. If the rule
takes life to the left and the row begins with a live cell, every row of the history does; if it
does not take life to the left, every row after the first begins with a dead cell. If the row ends
with a live cell, every row does, under a rule that takes life to the right, and under one that does
not but keeps a last live cell alive whatever stands before it.

In the diagram of rule 110, of a row that begins and ends with live cells, the first live cell of a
row is one column further left than in the row before, and the column of the last cell of the first
row is live throughout. -/
theorem edges_are_tight (rule : Rule) {start : List Bool} (hne : start ≠ []) (n : ℕ) :
    ∃ (rows : List (List Bool)) (grid : Grid),
      rule.Records start n rows ∧ rows.length = n ∧
      Grid.ofDatum (.tuple ((rows.map Row.ofBits).map .tuple)) = .ok grid ∧
      (rule.output false false true = true → start.head? = some true →
        ∀ row ∈ rows, row.head? = some true) ∧
      (rule.output false false true = false → ∀ row ∈ rows.tail, row.head? = some false) ∧
      (rule.output true false false = true → start.getLast? = some true →
        ∀ row ∈ rows, row.getLast? = some true) ∧
      (rule.output true false false = false → rule.output false true false = true →
        rule.output true true false = true → start.getLast? = some true →
        ∀ row ∈ rows, row.getLast? = some true) ∧
      (rule = rule110 → start.head? = some true → start.getLast? = some true → ∀ i < n,
        (∀ c < n - 1 - i, grid.entryAt? i c = some 0) ∧
        grid.entryAt? i (n - 1 - i) = some 1 ∧
        grid.entryAt? i (n - 1 + (start.length - 1)) = some 1) := by
  have hends (hkeeps : rule.output true false false = true ∨
      ∀ prev, rule.output prev true false = true) (hstart : start.getLast? = some true) :
      ∀ row ∈ rule.generations start n, row.getLast? = some true := by
    intro row hrow
    obtain ⟨i, -, rfl⟩ := List.mem_map.mp hrow
    rw [Row.getLast?_eq_some_iff hne] at hstart
    rw [Row.getLast?_eq_some_iff (generation_ne_nil hne i)]
    exact last_generation_of_keeps hkeeps hne hstart i
  refine ⟨rule.generations start n, Grid.diagram (rule.generations start n),
    rule.records_generations start n, rule.length_generations start n, Grid.ofDatum_ofBits _,
    ?_, ?_, fun hgrows => hends (.inl hgrows), ?_, ?_⟩
  · intro hgrows hstart row hrow
    obtain ⟨i, -, rfl⟩ := List.mem_map.mp hrow
    rw [Row.head?_eq_some_iff hne] at hstart
    rw [Row.head?_eq_some_iff (generation_ne_nil hne i)]
    exact first_generation_of_grows hgrows hstart i
  · intro hgrows row hrow
    cases n with
    | zero => cases hrow
    | succ n =>
        rw [generations_succ, List.tail_cons] at hrow
        obtain ⟨i, -, rfl⟩ := List.mem_map.mp hrow
        -- row `i` of those after the first is the generation after `i`
        change (rule.generation start (i + 1)).head? = some false
        rw [Row.head?_eq_some_iff (generation_ne_nil hne (i + 1))]
        exact first_generation_of_not_grows hgrows i
  · intro _ hlone hpair
    refine hends (.inr fun prev => ?_)
    cases prev with
    | false => exact hlone
    | true => exact hpair
  · rintro rfl hfirst hlast i hi
    rw [Row.head?_eq_some_iff hne] at hfirst
    rw [Row.getLast?_eq_some_iff hne] at hlast
    exact entryAt?_rule110 hne hfirst hlast hi

/-- Rule 110 keeps both edges of a row of one live cell, and rule 30, which takes life to both
sides, both edges of a row of three. Rule 4 takes it to neither and keeps only the live cell. -/
theorem edges_of_live_cells :
    ([true] : List Bool) ≠ [] ∧ ([true, false, true] : List Bool) ≠ [] ∧
    (∃ (rows : List (List Bool)) (grid : Grid),
      rule110.Records [true] 5 rows ∧ rows.length = 5 ∧
      Grid.ofDatum (.tuple ((rows.map Row.ofBits).map .tuple)) = .ok grid ∧
      (∀ row ∈ rows, row.head? = some true) ∧ (∀ row ∈ rows, row.getLast? = some true) ∧
      ∀ i < 5, (∀ c < 4 - i, grid.entryAt? i c = some 0) ∧ grid.entryAt? i (4 - i) = some 1 ∧
        grid.entryAt? i 4 = some 1) ∧
    (∃ rows : List (List Bool),
      Records { number := 30 } [true, false, true] 4 rows ∧
      (∀ row ∈ rows, row.head? = some true) ∧ ∀ row ∈ rows, row.getLast? = some true) ∧
    ∃ rows : List (List Bool),
      Records { number := 4 } [true] 4 rows ∧
      (∀ row ∈ rows.tail, row.head? = some false) := by
  have hne : ([true] : List Bool) ≠ [] := List.cons_ne_nil _ _
  have hne' : ([true, false, true] : List Bool) ≠ [] := List.cons_ne_nil _ _
  refine ⟨hne, hne', ?_, ?_, ?_⟩
  · obtain ⟨rows, grid, hrecords, hlength, hgrid, hfirst, -, -, hlast, hdiagram⟩ :=
      rule110.edges_are_tight hne 5
    exact ⟨rows, grid, hrecords, hlength, hgrid, hfirst rfl rfl, hlast rfl rfl rfl rfl,
      hdiagram rfl rfl rfl⟩
  · obtain ⟨rows, -, hrecords, -, -, hfirst, -, hlast, -⟩ :=
      edges_are_tight { number := 30 } hne' 4
    exact ⟨rows, hrecords, hfirst (by decide) rfl, hlast (by decide) rfl⟩
  · obtain ⟨rows, -, hrecords, -, -, -, hdead, -⟩ := edges_are_tight { number := 4 } hne 4
    exact ⟨rows, hrecords, hdead (by decide)⟩

end Rule

end Metered
