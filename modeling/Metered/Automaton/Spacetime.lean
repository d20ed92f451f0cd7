import Metered.Datum.Container

/-!
# Spacetime Diagrams

A history laid out so that each column is one position of the line. Every generation has one cell
more on the left than the one before, so row `i` of `n` rows begins in column `n - 1 - i`.

* `starts` — the column in which each row begins;
* `columns` — the number of columns that hold all rows;
* `Grid.ofHistory` — the rows as numbers in their columns, zero elsewhere.

A history may also be given as any datum (`Spacetime.ofDatum`, `Grid.ofDatum`).

Of arrays of bytes it is assumed that a new one holds zeros only, and that cells which are assigned
to a stretch of a row, as long as there are cells, take the place of what stood there and of nothing
else (`Grid.row_eq_overwrite`). They are converted first, in order, by the rules of `Grid.byte`;
a row with a cell that is itself a row is refused before that.
-/

namespace Metered

namespace Spacetime

/-- The column in which each row of a history begins. -/
def starts {α : Type} (history : List α) : List Nat :=
  (List.range history.length).map (history.length - 1 - ·)

/-- The rows of a history, each with the column in which it begins. -/
def placed {α : Type} (history : List (List α)) : List (Nat × List α) :=
  (starts history).zip history

/-- The number of columns that hold all rows of a history. -/
def columns {α : Type} (history : List (List α)) : Nat :=
  (placed history).foldl (fun width row => max width (row.1 + row.2.length)) 0

/-- The rows of a history that is given as any datum: it and all its rows are counted before
anything else is done with them. -/
def ofDatum (history : Datum) : Except Fault (List (List Datum)) := do
  let rows ← history.countedItems
  rows.mapM Datum.countedItems

end Spacetime

/-- A rectangle of bytes. -/
structure Grid where
  width : Nat
  rows : List (List Nat)
  deriving DecidableEq, Repr

namespace Grid

/-- A cell as an integer: truth values count as bits, floating-point numbers are cut off and
numerals are read. -/
def whole : Datum → Except Fault Int
  | .int n => .ok n
  | .bool b => .ok b.toNat
  | .real x =>
    match x.truncate? with
    | some n => .ok n
    | none => .error (.notFinite x)
  | .text s => (Text.readInteger s).mapError (.notNumeral s)
  | d => .error (.notNumber d.typeName)

/-- A cell as a byte; the integer that it stands for must fit. -/
def byte (cell : Datum) : Except Fault Nat := do
  let n ← whole cell
  if 0 ≤ n ∧ n < 256 then pure n.toNat else throw (.notByte n)

/-- Whether a cell is itself a row. -/
def isNested : Datum → Bool
  | .tuple _ | .list _ => true
  | _ => false

/-- The cells of a row as bytes. No cell is looked at as long as one of them is a row. -/
def bytes (cells : List Datum) : Except Fault (List Nat) :=
  if cells.any isNested then .error .nestedCell else cells.mapM byte

/-- A row of a grid: cells from a column on, zeros around them. -/
def row (width shift : Nat) (cells : List Nat) : List Nat :=
  List.replicate shift 0 ++ cells ++ List.replicate (width - shift - cells.length) 0

/-- The ground on which cells are written, with a stretch overwritten by them from a column on. -/
def overwrite (ground : List Nat) (start : Nat) (cells : List Nat) : List Nat :=
  ground.take start ++ cells ++ ground.drop (start + cells.length)

/-- A row that fits is one of zeros with a single stretch overwritten. -/
theorem row_eq_overwrite {width shift : Nat} {cells : List Nat} (h : shift + cells.length ≤ width) :
    row width shift cells = overwrite (List.replicate width 0) shift cells := by
  rw [row, overwrite, List.take_replicate, List.drop_replicate, Nat.min_eq_left (by omega),
    Nat.sub_sub]

/-- The diagram of a history. -/
def ofHistory (history : List (List Datum)) : Except Fault Grid := do
  let width := Spacetime.columns history
  let rows ← (Spacetime.placed history).mapM fun (shift, cells) => do
    let bytes ← bytes cells
    pure (row width shift bytes)
  pure ⟨width, rows⟩

/-- The cells of a row that is given as any datum. A text or a dictionary is no row of cells but
stands itself in each of them. -/
def cellsOf (row : Datum) : Except Fault (List Datum) := do
  let items ← row.countedItems
  match row with
  | .text _ | .dict _ => pure (items.map fun _ => row)
  | _ => pure items

/-- The diagram of a history that is given as any datum: it and all its rows are counted before
anything else is done with them. -/
def ofDatum (history : Datum) : Except Fault Grid := do
  let rows ← history.countedItems
  let cells ← rows.mapM cellsOf
  ofHistory cells

end Grid

end Metered
