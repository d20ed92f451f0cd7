import Metered.Automaton.History
import Metered.Operand
import Metered.Settings
import Metered.Unary

/-!
# Queries

A query is a call that draws on a tank, with operands that have not been checked. `Query.derive` is
the derivation that answers it: the operands are checked first, in the order in which the call takes
them, and nothing is spent on them.

* `Query.opening` — what a query comes to before it draws on a tank;
* `Query.ownTank` — the tank of a query that is asked alone;
* `Query.answer` — the answer to a query that is asked alone;
* `Query.session` — several queries on one tank.
-/

namespace Metered

/-- A call that draws on a tank. -/
inductive Query where
  | burn (amount : Datum)
  | tally (n : Datum)
  | add (a b : Datum)
  | subtract (a b : Datum)
  | isLess (a b : Datum)
  | multiply (a b : Datum)
  | divide (a b : Datum)
  | divides (a b : Datum)
  | isEven (n : Datum)
  | isPrime (n : Datum)
  | join (first second : Datum)
  | sweep (rule : Rule) (prev cur rest : Datum)
  | successor (rule : Rule) (row : Datum)
  | history (rule : Rule) (start n : Datum)
  | run (table tape state : Datum)

namespace Query

/-- A derivation on two natural operands, checked from left to right. -/
def onNaturals {α : Type} (op : String) (a b : Datum) (derivation : Nat → Nat → Derivation α) :
    Derivation α := do
  let m ← Operand.natural op a
  let n ← Operand.natural op b
  derivation m n

/-- A derivation on one natural operand. -/
def onNatural {α : Type} (op : String) (n : Datum) (derivation : Nat → Derivation α) :
    Derivation α := do
  let m ← Operand.natural op n
  derivation m

/-- A number as a datum. -/
def ofNat (n : Nat) : Datum :=
  .int n

/-- Draw the amount that a datum is. -/
def burnDatum (amount : Datum) : Derivation Unit :=
  match amount.number? with
  | some amount => Metered.burn amount
  | none => do
    let tank ← get
    throw (.unsupported "+=" tank.spent.typeName amount.typeName)

/-- Join two sequences that are given as any data with items. -/
def joinData (first second : Datum) : Derivation (List Datum) := do
  let xs ← first.items
  let ys ← second.items
  Sequence.join xs ys

/-- The derivation that answers a query. -/
def derive : Query → Derivation Datum
  | burn amount => do
    burnDatum amount
    pure .null
  | tally n => do
    let cells ← onNatural "pad" n Unary.tally
    pure (.tuple (cells.map ofNat))
  | add a b => ofNat <$> onNaturals "add" a b Unary.add
  | subtract a b => ofNat <$> onNaturals "subtract" a b Unary.subtract
  -- `a` is below `b` if something is left of `b`, so `b` is the first operand of the subtraction
  | isLess a b => .bool <$> onNaturals "subtract" b a fun n m => Unary.isLess m n
  | multiply a b => ofNat <$> onNaturals "multiply" a b Unary.multiply
  | divide a b => ofNat <$> onNaturals "divide" a b Unary.divide
  | divides a b => .bool <$> onNaturals "divides" a b Unary.divides
  | isEven n => .bool <$> onNatural "divides" n Unary.isEven
  | isPrime n => .bool <$> onNatural "is_prime" n Unary.isPrime
  | join first second => .tuple <$> joinData first second
  | sweep rule prev cur rest => .tuple <$> rule.sweepDatum prev cur rest
  | successor rule row => .tuple <$> rule.successorDatum row
  | history rule start n => do
    let rows ← onNatural "iterate" n (rule.historyDatum start)
    pure (.tuple (rows.map .tuple))
  | run table tape state => AnyTape.toDatum <$> Table.run table (AnyTape.ofDatum tape) state

/-! ### Queries that are asked alone -/

/-- What two natural operands, checked from left to right, come to. -/
def checkNaturals {α : Type} (op : String) (a b : Datum) (outcome : Nat → Nat → Except Fault α) :
    Except Fault α := do
  let m ← Operand.natural op a
  let n ← Operand.natural op b
  outcome m n

/-- What a query comes to before it draws on a tank: a fault of its operands, an answer that is
plain from them, or neither. -/
def opening : Query → Except Fault (Option Datum)
  | tally n => do
    let _ ← Operand.natural "pad" n
    pure none
  | add a b => checkNaturals "add" a b fun _ _ => pure none
  | subtract a b => checkNaturals "subtract" a b fun _ _ => pure none
  | isLess a b => checkNaturals "subtract" b a fun _ _ => pure none
  | multiply a b => checkNaturals "multiply" a b fun m n =>
    pure (if m = 0 ∨ n = 0 then some (ofNat 0) else none)
  | divide a b => checkNaturals "divide" a b fun _ n =>
    if n = 0 then throw (.divisionByZero "divide") else pure none
  | divides a b => checkNaturals "divides" a b fun m n =>
    if m = 0 then throw (.divisionByZero "divides")
    else pure (if n = 0 then some (.bool true) else none)
  | isEven n => do
    let m ← Operand.natural "divides" n
    pure (if m = 0 then some (.bool true) else none)
  | isPrime n => do
    let m ← Operand.natural "is_prime" n
    pure (if m < 2 then some (.bool false) else if m < 4 then some (.bool true) else none)
  | successor _ row => do
    let cells ← row.items
    Row.check "next_row" cells
    pure (if cells.isEmpty then some (.tuple []) else none)
  | history _ start n => do
    let _ ← Operand.natural "iterate" n
    let cells ← start.items
    Row.check "iterate" cells
    pure none
  | run table _ _ => do
    let _ ← Table.ofLiteral table
    pure none
  | burn _ | join .. | sweep .. => pure none

/-- The tank of a query that is asked alone, whose limit is one of the settings. A run has the
budget of a machine, and joining two sequences costs just what is there for it. -/
def ownTank (query : Query) (settings : Settings := {}) : Except Fault Tank :=
  match query with
  | run .. => Tank.ofLimit (.int settings.transitions) Table.runPurpose
  | join _ second => .ok { limit := .int (second.size?.getD 0), what := Tank.standardPurpose }
  | _ => settings.tank

/-- The answer to a query that is asked alone. Its tank is not made before the operands are
checked, nor where the answer is plain from them. -/
def answer (query : Query) (settings : Settings := {}) : Except Fault Datum := do
  match ← query.opening with
  | some value => pure value
  | none =>
    let tank ← query.ownTank settings
    (query.derive.runOn tank).1

/-! ### Sessions -/

/-- The answers to several queries on one tank, each with the tank it leaves to the next. -/
def session (tank : Tank) (queries : List Query) : List (Except Fault Datum × Tank) :=
  tank.serve (queries.map derive)

end Query

end Metered
