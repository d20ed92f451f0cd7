import Metered.Tank

/-!
# Sequences

Taking sequences apart at either end, and joining them at a cost.

* `uncons`, `unsnoc` — the two ways to take a sequence apart; an empty one is a fault;
* `unconsD`, `unsnocD` — the same with a default in place of the fault;
* `join` — one sequence moved onto the end of another, one unit for each item moved.
-/

namespace Metered.Sequence

variable {α : Type}

/-- A sequence with an item at its end. -/
def push (items : List α) (x : α) : List α :=
  items ++ [x]

/-- The first item of a sequence and the rest. -/
def uncons : List α → Except Fault (α × List α)
  | [] => .error (.emptySequence "head_tail")
  | x :: rest => .ok (x, rest)

/-- All items of a sequence but the last, and the last. -/
def unsnoc (items : List α) : Except Fault (List α × α) :=
  match items.getLast? with
  | none => .error (.emptySequence "init_last")
  | some x => .ok (items.dropLast, x)

/-- The first item of a sequence and the rest, or a default and nothing. -/
def unconsD (items : List α) (default : α) : α × List α :=
  match items with
  | [] => (default, [])
  | x :: rest => (x, rest)

/-- All items of a sequence but the last, and the last; or nothing and a default. -/
def unsnocD (items : List α) (default : α) : List α × α :=
  (items.dropLast, items.getLast?.getD default)

/-- A sequence without its last item; there is nothing to drop from an empty one. -/
def pop (items : List α) : List α :=
  items.dropLast

/-- Move items one by one onto the end of a sequence, which is held last item first. -/
def moveOnto (moved : List α) : List α → Derivation (List α)
  | [] => pure moved.reverse
  | x :: rest => do
    burn 1
    moveOnto (x :: moved) rest

/-- The items of two sequences in order, at one unit for each item of the second. -/
def join (first second : List α) : Derivation (List α) :=
  moveOnto first.reverse second

end Metered.Sequence
