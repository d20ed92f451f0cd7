import Metered.Automaton.Spacetime
import Metered.Text.Style

/-!
# Pictures of Histories

A history drawn in characters, a full block for a live cell and a space for a dead one, laid out as
in a spacetime diagram: one line for each row, and every line as wide as the diagram.
-/

namespace Metered.Picture

/-- The character of a cell. -/
def glyph (live : Bool) : Char :=
  if live then '\u2588' else ' '

/-- The style of a cell. -/
def style (live : Bool) : Text.Style :=
  if live then .lit else .dim

/-- A cell as it is drawn. It must be fit to be looked up and equal to a bit. -/
def cell (color : Bool) (d : Datum) : Except Fault (List Char) :=
  match d.unhashable? with
  | some type => .error (.unhashable type)
  | none =>
    match d.bit? with
    | some live => .ok ((style live).apply color [glyph live])
    | none => .error (.unknownKey d)

/-- A row, drawn at the right end of a line of `width` columns; a longer row is not cut. -/
def line (color : Bool) (width : Int) (row : List Datum) : Except Fault (List Char) := do
  let cells ← row.mapM (cell color)
  pure (List.replicate (width - row.length).toNat ' ' ++ cells.flatten)

/-- The lines of a history. -/
def lines (color : Bool) (history : List (List Datum)) : Except Fault (List (List Char)) :=
  let width := Spacetime.columns history
  (Spacetime.placed history).mapM fun (shift, row) => do
    let drawn ← line color (shift + row.length : Nat) row
    pure (drawn ++ List.replicate (width - shift - row.length) ' ')

/-- The text of a history, its lines set off by line breaks. -/
def text (color : Bool) (history : List (List Datum)) : Except Fault String :=
  (lines color history).map fun drawn => String.ofList (['\n'].intercalate drawn)

/-! ### Pictures from data -/

/-- One more than the widest margin there can be. -/
def marginBound : Int := 0x8000000000000000

/-- The number of columns before a row of `count` cells in a line of a width: none if the row is
longer, otherwise the difference, which must be an integer and not beyond all bounds. -/
def margin (width : Number) (count : Nat) : Except Fault Nat :=
  match width.subtract? (.int count) with
  | none => .error .tooLarge
  | some rest =>
    if rest.isBelow 0 then .ok 0
    else
      match rest.value with
      | .inr _ => .error (.notWidth rest.typeName)
      | .inl n => if n < marginBound then .ok n.toNat else .error .tooWide

/-- The width that a datum sets for a row of `count` cells, or that of the row where it sets
none. -/
def widthOf (count : Nat) : Datum → Except Fault Number
  | .null => .ok (.int count)
  | width =>
    match width.number? with
    | some width => .ok width
    | none => .error (.unsupported "-" width.typeName "int")

/-- The text of a row in a line of a width, or of its own length. -/
def rowText (color : Bool) (width row : Datum) : Except Fault String := do
  let cells ← row.countedItems
  let width ← widthOf cells.length width
  let margin ← margin width cells.length
  let drawn ← line color (margin + cells.length : Nat) cells
  pure (String.ofList drawn)

/-- The text of a history that is given as any datum. -/
def historyText (color : Bool) (history : Datum) : Except Fault String := do
  let rows ← Spacetime.ofDatum history
  text color rows

end Metered.Picture
