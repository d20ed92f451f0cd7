import Metered.Automaton.Rule
import Metered.Datum.Container

/-!
# Rows and Histories

A row is a finite piece of the line outside of which all cells are zero. The next generation of a
row has one cell more on the left, and one more on the right if the rule grows to the right; so no
live cell is ever lost.

* `Rule.sweep` — the new values of neighbouring cells, one unit for each;
* `Rule.successor` — the next generation of a row;
* `Rule.history` — a number of generations, oldest first, one unit more for each.

A row may be given as any datum that yields cells; `Rule.sweepDatum`, `Rule.successorDatum` and
`Rule.historyDatum` say what each of the three makes of other data.
-/

namespace Metered

namespace Row

/-- Whether a cell may stand in a row: it equals a bit and is no truth value. -/
def isCell : Datum → Bool
  | .bool _ => false
  | d => d.bit?.isSome

/-- The check that an operation makes of the cells of a row. -/
def check (op : String) (row : List Datum) : Except Fault Unit :=
  match row.find? (! isCell ·) with
  | some cell => .error (.notBit op cell)
  | none => .ok ()

end Row

namespace Rule

/-- The new values of `cur` and every cell of `rest`, from left to right, with `prev` before them
and a zero after them. -/
def sweep (rule : Rule) (prev cur : Datum) : List Datum → Derivation (List Datum)
  | [] => do
    burn 1
    let cell ← rule.apply prev cur 0
    pure [cell]
  | next :: rest => do
    burn 1
    let cell ← rule.apply prev cur next
    let cells ← rule.sweep cur next rest
    pure (cell :: cells)

/-- The next generation of a row: a new cell on the left, the cells of the row, and for a rule that
grows to the right a new cell there. -/
def successor (rule : Rule) (row : List Datum) : Derivation (List Datum) := do
  Row.check "next_row" row
  match row with
  | [] => pure []
  | first :: rest =>
    let cells ← rule.sweep 0 first rest
    let left ← rule.apply 0 0 first
    if rule.growsRight then
      let right ← rule.apply (rest.getLast?.getD first) 0 0
      pure (left :: cells ++ [right])
    else pure (left :: cells)

/-- Carry a history of rows, held newest first, on for a number of generations. -/
def extend (rule : Rule) (past : List (List Datum)) (row : List Datum) :
    Nat → Derivation (List (List Datum))
  | 0 => pure past.reverse
  | n + 1 => do
    burn 1
    let next ← rule.successor row
    rule.extend (row :: past) next n

/-- The first `n` generations of a row, oldest first, beginning with the row itself. -/
def history (rule : Rule) (start : List Datum) (n : Nat) : Derivation (List (List Datum)) := do
  Row.check "iterate" start
  rule.extend [] start n

/-! ### Rows from data -/

/-- `sweep` on a datum for the cells that follow. One without items ends the row; one that cannot be
taken apart is found out once its first cell has been paid for. -/
def sweepDatum (rule : Rule) (prev cur rest : Datum) : Derivation (List Datum) :=
  match rest.sequence? with
  | some (_, cells) => rule.sweep prev cur cells
  | none =>
    if rest.isFilled then do
      burn 1
      throw rest.noFirst
    else rule.sweep prev cur []

/-- `successor` on a datum for the row, whose cells are checked before it is taken apart. -/
def successorDatum (rule : Rule) (row : Datum) : Derivation (List Datum) := do
  let cells ← row.items
  Row.check "next_row" cells
  unless cells.isEmpty do
    let _ ← row.uncons
  rule.successor cells

/-- `history` on a datum for the first row. -/
def historyDatum (rule : Rule) (start : Datum) (n : Nat) : Derivation (List (List Datum)) := do
  let cells ← start.items
  rule.history cells n

end Rule

end Metered
