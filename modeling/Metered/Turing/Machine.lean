import Metered.Settings
import Metered.Turing.Display

/-!
# Machines

A machine is a checked table with a tape and a state that change, and counters of what has happened
to them.

* `Machine.tick` — one transition, or nothing once the machine has halted;
* `Machine.run` — transitions until the halt, within an allowance that each run has for itself;
* `Machine.runBlank` — the run of a table from the blank tape;
* `Machine.session` — a machine under several commands in turn.

A run for which no limit is named has the one of the settings. A run can write a line for each of
its transitions. A command that ends with a fault leaves the machine as it was before the transition
that failed, so that it can be told to go on.
-/

namespace Metered

/-- A machine in the middle of its work. -/
structure Machine where
  /-- The table in normal form. -/
  table : Datum
  tape : Tape Datum
  state : Datum
  /-- The transitions made so far. -/
  steps : Nat := 0
  leftMoves : Nat := 0
  rightMoves : Nat := 0
  /-- The most cells that were recorded at any time. -/
  extent : Nat

namespace Machine

/-- A machine at its start; the table is checked first. -/
def ofTable (raw : Datum) (tape : Tape Datum) (state : Datum) : Except Fault Machine := do
  let table ← Table.ofDatum raw
  pure { table := table.toDatum, tape := tape, state := state, extent := tape.width }

/-- A machine at its start on any datum for a tape; its cells are joined once the table is
checked. -/
def ofData (raw tape state : Datum) : Except Fault Machine := do
  let machine ← ofTable raw Tape.blank state
  let tape ← (AnyTape.ofDatum tape).joined
  pure { machine with tape := tape, extent := tape.width }

/-- Whether a machine has halted. -/
def halted (machine : Machine) : Bool :=
  isHalt machine.state

/-! ### Transitions -/

/-- The machine after a transition. -/
def apply (machine : Machine) (entry : Transition) : Machine :=
  let tape := entry.apply machine.tape
  { machine with
    tape := tape
    state := entry.next
    steps := machine.steps + 1
    leftMoves := machine.leftMoves + (if entry.heading = .left then 1 else 0)
    rightMoves := machine.rightMoves + (if entry.heading = .right then 1 else 0)
    extent := max machine.extent tape.width }

/-- The machine after the transition that its table has for its state and the cell under its
head. -/
def advance (machine : Machine) : Except Fault Machine :=
  (Table.lookup machine.table machine.state machine.tape.head).map machine.apply

/-- One transition, unless the machine has halted: whether it is still running, and the machine. -/
def tick (machine : Machine) : Except Fault Bool × Machine :=
  if machine.halted then (.ok false, machine)
  else match machine.advance with
    | .ok next => (.ok !next.halted, next)
    | .error fault => (.error fault, machine)

/-! ### Runs -/

/-- What a run ends with: its result, the machine it leaves, and the lines it wrote. -/
structure Outcome where
  result : Except Fault (Tape Datum)
  machine : Machine
  log : List String

/-- The line that a run writes after a transition: the number of transitions so far in five columns,
then the tape and the state. -/
def traceLine (machine : Machine) : String :=
  let count := Nat.toDigits 10 machine.steps
  "step " ++ String.ofList (List.replicate (5 - count.length) ' ' ++ count) ++ "  " ++
    machine.tape.text machine.state false

/-- Transitions until the halt, at most `allowance` of them; `log` holds the lines so far, newest
first. -/
def runWithin (limit : Number) (verbose : Bool) :
    (allowance : Nat) → Machine → List String → Outcome
  | 0, machine, log =>
    if machine.halted then ⟨.ok machine.tape, machine, log.reverse⟩
    else
      let fault := .budgetExceeded limit (.int (machine.steps + 1)) Table.runPurpose
      ⟨.error fault, machine, log.reverse⟩
  | allowance + 1, machine, log =>
    if machine.halted then ⟨.ok machine.tape, machine, log.reverse⟩
    else match machine.advance with
      | .ok next =>
        runWithin limit verbose allowance next (if verbose then next.traceLine :: log else log)
      | .error fault => ⟨.error fault, machine, log.reverse⟩

/-- The number of transitions that may be made until their total reaches a budget. No total reaches
a budget that is infinite or no number. -/
def countBelow (budget : Number) (steps : Nat) : Nat :=
  match budget.ceiling? with
  | some total => (total - steps).toNat
  | none => if budget.isBelow 0 then 0 else Tank.inexhaustible

/-- The number of transitions that a limit allows after `steps` of them: as many as can be made
before the total reaches the sum of both, which is rounded if the limit is a floating-point
number. -/
def allowance (steps : Nat) (limit : Number) : Except Fault Nat :=
  match (Number.int steps).add? limit with
  | some budget => .ok (countBelow budget steps)
  | none => .error .tooLarge

/-- The limit that a datum sets, or the one of the settings where it sets none. -/
def limitOf (settings : Settings) : Datum → Except Fault Number
  | .null => .ok (.int settings.transitions)
  | limit =>
    match limit.number? with
    | some limit => .ok limit
    | none => .error (.unsupported "+" "int" limit.typeName)

/-- Transitions until the halt, within the allowance of a limit. -/
def run (machine : Machine) (limit : Datum) (verbose : Bool) (settings : Settings := {}) :
    Outcome :=
  let allowed := do
    let limit ← limitOf settings limit
    let allowance ← allowance machine.steps limit
    pure (limit, allowance)
  match allowed with
  | .ok (limit, allowance) => machine.runWithin limit verbose allowance []
  | .error fault => ⟨.error fault, machine, []⟩

/-- A run of a table from the blank tape and its first state. -/
def runBlank (raw limit : Datum) (settings : Settings := {}) : Except Fault (Tape Datum) := do
  let machine ← ofTable raw Tape.blank (.int 0)
  (machine.run limit false settings).result

/-! ### Commands -/

/-- What a machine can be told to do. -/
inductive Command where
  | tick
  | run (limit : Datum) (verbose : Bool)

/-- What a machine answers to a command. -/
inductive Reply where
  /-- Whether the machine is still running after a tick. -/
  | ticked (result : Except Fault Bool)
  /-- The tape at the end of a run, and the lines that the run wrote. -/
  | ran (result : Except Fault (Tape Datum)) (log : List String)

/-- The reply of a machine to a command, and the machine after it. -/
def perform (machine : Machine) (command : Command) (settings : Settings := {}) :
    Reply × Machine :=
  match command with
  | .tick =>
    let (result, next) := machine.tick
    (.ticked result, next)
  | .run limit verbose =>
    let outcome := machine.run limit verbose settings
    (.ran outcome.result outcome.log, outcome.machine)

/-- The replies of a machine to several commands, each with the machine after it. -/
def session (machine : Machine) (commands : List Command) (settings : Settings := {}) :
    List (Reply × Machine) :=
  match commands with
  | [] => []
  | command :: rest =>
    let answer := machine.perform command settings
    answer :: session answer.2 rest settings

end Machine

end Metered
