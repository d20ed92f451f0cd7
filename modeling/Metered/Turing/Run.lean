import Metered.Tank
import Metered.Turing.AnyTape
import Metered.Turing.Lookup

/-!
# Runs

A table carries a tape and a state from one transition to the next until the state is the halt.

* `transition` — one transition;
* `run` — transitions until the halt, at one unit each.
-/

namespace Metered.Table

/-- The number of transitions that are allowed where no number is named. -/
def standardSteps : Int := 100000

/-- What the budget of a run pays for. -/
def runPurpose : String := "turing machine"

/-- The tape and the state after one transition. -/
def next (table : Datum) (tape : AnyTape) (state : Datum) : Except Fault (AnyTape × Datum) := do
  let cell ← tape.head
  let entry ← lookup table state cell
  let moved ← tape.move entry.heading entry.write
  pure (moved, entry.next)

/-- One transition on a table as it is given. -/
def transition (raw : Datum) (tape : AnyTape) (state : Datum) :
    Except Fault (AnyTape × Datum) := do
  let table ← ofLiteral raw
  next table tape state

/-- Transitions until the halt. The bound is what the tank can pay for, so that where it is used up
only the halt itself does not overdraw the tank. -/
def runWithin (table : Datum) : (bound : Nat) → AnyTape → Datum → Derivation AnyTape
  | 0, tape, state => do
    unless isHalt state do burn 1
    pure tape
  | bound + 1, tape, state => do
    if isHalt state then pure tape
    else
      burn 1
      let (moved, reached) ← next table tape state
      runWithin table bound moved reached

/-- Transitions from a state until the halt, on a table as it is given. -/
def run (raw : Datum) (tape : AnyTape) (state : Datum) : Derivation AnyTape := do
  let table ← ofLiteral raw
  let tank ← get
  runWithin table tank.capacity tape state

end Metered.Table
