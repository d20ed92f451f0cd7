import Metered.Text.Blank
import Metered.Text.Capital

/-!
# Directions

The two ways a head moves. `Direction.ofWord?` reads a direction from a word: the letter or the
full name, in capitals or not, with blanks around it.
-/

namespace Metered

/-- One of the two ways along a tape. -/
inductive Direction where
  | left
  | right
  deriving DecidableEq, Repr, Inhabited

namespace Direction

/-- The other way. -/
def opposite : Direction → Direction
  | left => right
  | right => left

/-- The letter of a direction. -/
def letter : Direction → String
  | left => "L"
  | right => "R"

/-- The name of a direction. -/
def name : Direction → String
  | left => "LEFT"
  | right => "RIGHT"

/-- The direction that a text names once blanks around it and the case of its letters are set
aside. -/
def ofWord? (text : String) : Option Direction :=
  match Text.capitals (Text.trim Text.isBlank text.toList) with
  | ['L'] | ['L', 'E', 'F', 'T'] => some left
  | ['R'] | ['R', 'I', 'G', 'H', 'T'] => some right
  | _ => none

end Direction

end Metered
