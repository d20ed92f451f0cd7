import Metered.Binary64.Decimal
import Metered.Datum.Basic
import Metered.Text.Quoted

/-!
# Written Data

Two ways to show a datum. `Datum.written` is its literal form: texts are quoted, a tuple of one item
keeps its comma, the data of the engine name their fields. `Datum.plain` is the form within a
sentence, which differs for texts and directions.

Nothing is too large to be written: an integer is written with all its digits and nested data to any
depth, although a numeral of very many digits is not read (`Text.Numeral.maxDigits`). The same holds
wherever data are shown, in faults, tapes and traces.
-/

namespace Metered.Datum

/-- Items set off by commas. -/
def commaSeparated (items : List String) : String :=
  ", ".intercalate items

mutual

/-- The literal form of a datum. -/
def written : Datum → String
  | null => "None"
  | bool b => if b then "True" else "False"
  | int n => toString n
  | real x => x.toText
  | text s => Text.quoted s
  | tuple [x] => "(" ++ written x ++ ",)"
  | tuple xs => "(" ++ commaSeparated (writtenItems xs) ++ ")"
  | list xs => "[" ++ commaSeparated (writtenItems xs) ++ "]"
  | dict es => "\x7b" ++ commaSeparated (writtenEntries es) ++ "\x7d"
  | direction d => "<Direction." ++ d.name ++ ": " ++ Text.quoted d.letter ++ ">"
  | transition w m n =>
    "Transition(write=" ++ written w ++ ", move=" ++ written m ++
      ", next_state=" ++ written n ++ ")"
  | tape l h r =>
    "Tape(left=" ++ written l ++ ", head=" ++ written h ++ ", right=" ++ written r ++ ")"
  | rule number => "ElementaryRule(" ++ toString number ++ ")"

/-- The literal forms of a row of data. -/
def writtenItems : List Datum → List String
  | [] => []
  | x :: xs => written x :: writtenItems xs

/-- The literal forms of the entries of a dictionary. -/
def writtenEntries : List (Datum × Datum) → List String
  | [] => []
  | (key, value) :: entries => (written key ++ ": " ++ written value) :: writtenEntries entries

end

/-- The form of a datum within a sentence. -/
def plain : Datum → String
  | text s => s
  | direction d => "Direction." ++ d.name
  | d => written d

end Metered.Datum
