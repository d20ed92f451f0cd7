import Metered.Text.Style
import Metered.Turing.AnyTape
import Metered.Turing.Transition

/-!
# Tapes in Text

A tape is shown by its recorded cells from left to right, set off by spaces, the cell under the head
in brackets. The state stands in front where one is given: `q` and its number, or the word for the
halt. Cells and states are written with all their digits, however many these are.
-/

namespace Metered.Tape

/-- A datum as characters. -/
def cellChars (cell : Datum) : List Char :=
  cell.plain.toList

/-- The cell under the head as characters, in the style of the state. -/
def headChars (color : Bool) (state cell : Datum) : List Char :=
  let style := if isHalt state then Text.Style.halted else Text.Style.running
  style.apply color ('[' :: cellChars cell ++ [']'])

/-- The recorded cells as characters, the cell under the head in brackets. -/
def parts (color : Bool) (state : Datum) (tape : Tape Datum) : List (List Char) :=
  tape.left.reverse.map cellChars ++
    headChars color state tape.head :: tape.right.map cellChars

/-- The label of a state. -/
def stateLabel : Datum → List Char
  | .null => []
  | state =>
    (if isHalt state then ['H', 'A', 'L', 'T'] else 'q' :: state.plain.toList) ++ [':', ' ']

/-- The text of a tape and a state. -/
def text (tape : Tape Datum) (state : Datum) (color : Bool) : String :=
  String.ofList (stateLabel state ++ [' '].intercalate (parts color state tape))

end Metered.Tape

namespace Metered.AnyTape

/-- The text of a tape as it is given and a state. -/
def text (tape : AnyTape) (state : Datum) (color : Bool) : Except Fault String :=
  tape.itemized.map fun tape => tape.text state color

end Metered.AnyTape
