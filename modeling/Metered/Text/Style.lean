/-!
# Terminal Styles

Text is coloured by escape sequences of the form `ESC [ digits m`. A style is the list of the codes
that switch it on; code 0 switches all styles off again.

Of terminal colours it is assumed that every foreground, background and brightness has one code,
the same everywhere, and that styles are put together by writing their sequences one after another.
The sequences are part of the text. Whether it is shown on a terminal makes no difference to it.
-/

namespace Metered.Text

/-- The escape sequence of a code. -/
def escapeSequence (code : Nat) : List Char :=
  '\x1b' :: '[' :: Nat.toDigits 10 code ++ ['m']

/-- The codes that switch a style on, in order. -/
abbrev Style := List Nat

namespace Style

/-- Text in a style, if styles are wanted. -/
def apply (style : Style) (wanted : Bool) (text : List Char) : List Char :=
  if wanted then style.flatMap escapeSequence ++ text ++ escapeSequence 0 else text

/-- Dark grey, for dead cells. -/
def dim : Style := [90]

/-- Bright yellow, for live cells. -/
def lit : Style := [33, 1]

/-- Bright white on blue, for the head of a running machine. -/
def running : Style := [44, 37, 1]

/-- Bright white on red, for the head of a halted machine. -/
def halted : Style := [41, 37, 1]

end Style

end Metered.Text
