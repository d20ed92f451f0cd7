import Metered.Tank
import Metered.Turing.Run

/-!
# Settings

The two limits that hold where a call names none, each of which may be set by a text. The limit on
spending is read before the limit on transitions.

A query that is asked alone, a run and a session of a machine are taken under settings, the standard
ones if no others are given.
-/

namespace Metered

/-- The limits that hold where none is named. -/
structure Settings where
  spending : Int := Tank.standardLimit
  transitions : Int := Table.standardSteps
  deriving DecidableEq, Repr

namespace Settings

/-- The limit that a text sets, if there is one. -/
def limit (standard : Int) : Option String → Except Fault Int
  | none => .ok standard
  | some text => (Text.readInteger text).mapError (.notNumeral text)

/-- The settings that two texts make. -/
def ofTexts (spending transitions : Option String) : Except Fault Settings := do
  let spending ← limit Tank.standardLimit spending
  let transitions ← limit Table.standardSteps transitions
  pure ⟨spending, transitions⟩

/-- A fresh tank. -/
def tank (settings : Settings) : Except Fault Tank :=
  Tank.ofLimit (.int settings.spending) Tank.standardPurpose

end Settings

end Metered
