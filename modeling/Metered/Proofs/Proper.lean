import Mathlib.Data.Nat.Notation
import Metered.Query

/-!
# Proper Outcomes

An outcome is **proper** if it is a value, or a fault other than running short of the
budget. Drawing from a tank is all that can run short: the checks of operands, rows, rules
and tables, and the transitions of a machine, yield proper outcomes only, whatever they are
given.

## Main results

* `isProper_natural`, `isProper_items`, `isProper_uncons`: operands and containers;
* `isProper_check`, `isProper_apply`: rows of cells and rules;
* `isProper_ofLiteral`, `isProper_lookup`, `isProper_next`: tables and transitions.
-/

namespace Metered

variable {α β : Type}

/-- A fault of running short of the budget. -/
def IsBudgetFault : Fault → Prop
  | .budgetExceeded .. => True
  | _ => False

/-- An outcome that is a value or a fault of its own, other than running short. -/
def IsProper (outcome : Except Fault α) : Prop :=
  ∀ fault, outcome = .error fault → ¬ IsBudgetFault fault

/-- A value is proper. -/
theorem isProper_ok (a : α) : IsProper (.ok a : Except Fault α) := by
  intro fault h
  cases h

/-- A fault of its own is proper. -/
theorem isProper_error {fault : Fault} (h : ¬ IsBudgetFault fault) :
    IsProper (.error fault : Except Fault α) := by
  intro fault' heq
  cases heq
  exact h

/-- Checks in sequence are proper if each of them is. -/
theorem IsProper.bind {check : Except Fault α} {next : α → Except Fault β}
    (hcheck : IsProper check) (hnext : ∀ a, IsProper (next a)) : IsProper (check >>= next) := by
  cases check with
  | error fault => exact isProper_error (hcheck fault rfl)
  | ok a => exact hnext a

/-- A function of the value does not make a check run short. -/
theorem IsProper.map {check : Except Fault α} (f : α → β) (h : IsProper check) :
    IsProper (check.map f) := by
  cases check with
  | error fault => exact isProper_error (h fault rfl)
  | ok a => exact isProper_ok (f a)

/-! ### Operands and containers -/

/-- The check of an operand is proper. -/
theorem isProper_natural (op : String) (operand : Datum) :
    IsProper (Operand.natural op operand) := by
  cases operand with
  | int n =>
      rw [Operand.natural]
      split
      · exact isProper_error id
      · exact isProper_ok _
  | _ => exact isProper_error id

/-- Going through the items of a datum is proper. -/
theorem isProper_items (d : Datum) : IsProper d.items := by
  rw [Datum.items]
  split
  · exact isProper_ok _
  · exact isProper_error id

/-- The fault of taking the first item of no sequence is not of the budget. -/
theorem not_isBudgetFault_noFirst (d : Datum) : ¬ IsBudgetFault d.noFirst := by
  cases d with
  | dict entries =>
      rw [Datum.noFirst]
      split <;> exact id
  | _ => exact id

/-- Taking the first item of a datum is proper. -/
theorem isProper_uncons (d : Datum) : IsProper d.uncons := by
  rw [Datum.uncons]
  split
  · rename_i kind xs _
    refine IsProper.map _ ?_
    cases xs with
    | nil => exact isProper_error id
    | cons x rest => exact isProper_ok _
  · split
    · exact isProper_error (not_isBudgetFault_noFirst d)
    · exact isProper_error id

/-- Taking the last item of a datum is proper. -/
theorem isProper_unsnoc (d : Datum) : IsProper d.unsnoc := by
  rw [Datum.unsnoc]
  split
  · refine IsProper.map _ ?_
    rw [Sequence.unsnoc]
    split
    · exact isProper_error id
    · exact isProper_ok _
  · split
    · cases d <;> exact isProper_error id
    · exact isProper_error id

/-- Continuing a datum with another one is proper. -/
theorem isProper_append (d other : Datum) : IsProper (d.append other) := by
  have hjoin : ¬ IsBudgetFault (d.noJoin other) := by
    rw [Datum.noJoin]
    split <;> exact id
  rw [Datum.append]
  split
  · split
    · exact isProper_ok _
    · exact isProper_error hjoin
  · exact isProper_error hjoin

/-! ### Rows and rules -/

/-- The check of the cells of a row is proper. -/
theorem isProper_check (op : String) (row : List Datum) : IsProper (Row.check op row) := by
  rw [Row.check]
  split
  · exact isProper_error id
  · exact isProper_ok _

/-- A look-up in a rule is proper. -/
theorem isProper_apply (rule : Rule) (prev cur next : Datum) :
    IsProper (rule.apply prev cur next) := by
  rw [Rule.apply]
  split
  · exact isProper_error id
  · split
    · exact isProper_ok _
    · exact isProper_error id

/-! ### Tables and transitions -/

/-- The check of an entry of a table is proper. -/
theorem isProper_entry (count number : ℕ) (raw : Datum) (bit : Bool) :
    IsProper (State.entry count number raw bit) := by
  rw [State.entry]
  split
  · exact isProper_error id
  · rename_i found _
    cases Instruction.ofDatum count found with
    | error fault => exact isProper_error id
    | ok instruction => exact isProper_ok instruction

/-- The check of the states of a table is proper. -/
theorem isProper_statesOfData (count number : ℕ) (states : List Datum) :
    IsProper (Table.statesOfData count number states) := by
  induction states generalizing number with
  | nil => exact isProper_ok []
  | cons raw rest ih =>
      have hstate : IsProper (State.ofDatum count number raw) :=
        (isProper_entry count number raw false).bind fun _ =>
          (isProper_entry count number raw true).bind fun _ => isProper_ok _
      exact hstate.bind fun _ => (ih (number + 1)).bind fun _ => isProper_ok _

/-- Making a table ready for look-ups is proper. -/
theorem isProper_ofLiteral (raw : Datum) : IsProper (Table.ofLiteral raw) := by
  rw [Table.ofLiteral]
  split
  · exact isProper_ok raw
  · refine IsProper.map _ ?_
    rw [Table.ofDatum]
    split
    · exact isProper_error id
    · exact isProper_error id
    · exact (isProper_statesOfData _ 0 _).map _

/-- A look-up in a table is proper. -/
theorem isProper_lookup (table state bit : Datum) : IsProper (Table.lookup table state bit) := by
  have hentry : IsProper (Table.entryAt table state bit) := by
    rw [Table.entryAt]
    split
    · exact isProper_error id
    · exact isProper_ok _
    · exact isProper_error id
  rw [Table.lookup]
  split
  · exact isProper_error id
  · split
    · exact isProper_error id
    · split
      · exact isProper_error id
      · split
        · exact hentry
        · exact isProper_error id

/-- The fields of a tape are read properly. -/
theorem isProper_fields (name : String) (d : Datum) : IsProper (AnyTape.fields name d) := by
  cases d with
  | tape left head right => exact isProper_ok _
  | _ => exact isProper_error id

/-- A move on a tape as it is given is proper. -/
theorem isProper_move (tape : AnyTape) (direction : Direction) (cell : Datum) :
    IsProper (tape.move direction cell) := by
  cases tape with
  | recorded tape => cases direction <;> exact isProper_ok _
  | other d =>
      cases direction with
      | left =>
          refine (isProper_fields "left" d).bind fun (left, _, right) => ?_
          refine IsProper.bind ?_ fun (left, head) => ?_
          · rw [Datum.unsnocD]
            split
            · exact isProper_unsnoc left
            · exact isProper_ok _
          · exact (isProper_append _ right).bind fun _ => isProper_ok _
      | right =>
          refine (isProper_fields "right" d).bind fun (left, _, right) => ?_
          refine IsProper.bind ?_ fun (head, right) => ?_
          · rw [Datum.unconsD]
            split
            · exact isProper_uncons right
            · exact isProper_ok _
          · exact (isProper_append left _).bind fun _ => isProper_ok _

/-- A transition is proper. -/
theorem isProper_next (table : Datum) (tape : AnyTape) (state : Datum) :
    IsProper (Table.next table tape state) := by
  have hhead : IsProper tape.head := by
    cases tape with
    | recorded tape => exact isProper_ok _
    | other d => exact (isProper_fields "head" d).map _
  refine hhead.bind fun cell => ?_
  refine (isProper_lookup table state cell).bind fun entry => ?_
  exact (isProper_move tape entry.heading entry.write).bind fun _ => isProper_ok _

end Metered
