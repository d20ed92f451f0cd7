import Metered.Fault

/-!
# Tanks and Derivations

Every computation that could go on for long is a *derivation*: it draws on a tank, one unit for
each of its steps, and ends with a fault as soon as more has been spent than the tank's limit. One
tank may serve many derivations, and a fault does not give back what was spent before it.

* `Tank` — a limit and what has been spent so far;
* `Derivation α` — a computation that draws on a tank;
* `burn` — draw an amount;
* `Tank.serve` — one tank serving several derivations in turn.

The `runOn_*` lemmas say what running a derivation on a tank gives, one for each way to make one.
-/

namespace Metered

/-- A limit on spending, what has been spent so far, and a word for what the tank pays for. -/
structure Tank where
  limit : Number
  what : String
  spent : Number := 0
  deriving Repr, Inhabited

namespace Tank

/-- The limit of a tank where none is named. -/
def standardLimit : Int := 1000000

/-- The word for what a tank pays for where none is named. -/
def standardPurpose : String := "evaluation"

/-- A fresh tank with a limit, which must not be below zero. -/
def ofLimit (limit : Number) (what : String) : Except Fault Tank :=
  if limit.isBelow 0 then .error (.negativeLimit limit)
  else .ok { limit := limit, what := what }

/-- A fresh tank with the limit that a datum sets, or the standard one where it sets none. -/
def ofDatum (limit : Datum) (what : String) : Except Fault Tank :=
  match limit, limit.number? with
  | .null, _ => ofLimit (.int standardLimit) what
  | _, some limit => ofLimit limit what
  | _, none => .error (.notComparable "<" limit.typeName "int")

/-- What may still be spent, below zero once the tank is overdrawn. There is no such number if what
was spent is too large for the format of the limit. -/
def remaining? (tank : Tank) : Option Number :=
  tank.limit.subtract? tank.spent

/-- Whether more has been spent than the limit. -/
def isOverdrawn (tank : Tank) : Bool :=
  tank.limit.isBelow tank.spent

/-- The tank after an amount is spent, unless the amount is too large for the format of what was
spent before, or the other way round. -/
def spend? (tank : Tank) (amount : Number) : Option Tank :=
  (tank.spent.add? amount).map fun spent => { tank with spent := spent }

/-- The fault of having spent more than the limit. -/
def exceeded (tank : Tank) : Fault :=
  .budgetExceeded tank.limit tank.spent tank.what

/-- More units than any derivation draws. -/
def inexhaustible : Nat := 0x4000000000000000

/-- How many single units can be drawn before the tank is overdrawn. A tank without a finite limit,
or with a fraction spent, counts as inexhaustible. -/
def capacity (tank : Tank) : Nat :=
  match tank.limit.floor?, tank.spent.value with
  | some limit, .inl spent => (limit - spent).toNat
  | _, _ => inexhaustible

/-- The literal form of a tank. -/
def written (tank : Tank) : String :=
  "Fuel(" ++ tank.spent.toDatum.plain ++ "/" ++ tank.limit.toDatum.plain ++ ")"

end Tank

/-! ### Derivations -/

/-- A computation that draws on a tank and ends with a value or a fault. -/
abbrev Derivation (α : Type) := ExceptT Fault (StateM Tank) α

namespace Derivation

/-- What a derivation ends with on a tank, and the tank it leaves. -/
def runOn {α : Type} (derivation : Derivation α) (tank : Tank) : Except Fault α × Tank :=
  StateT.run (ExceptT.run derivation) tank

end Derivation

/-- Draw an amount, which ends the derivation if the tank is then overdrawn. -/
def burn (amount : Number) : Derivation Unit := do
  let tank ← get
  match tank.spend? amount with
  | none => throw .tooLarge
  | some tank => do
    set tank
    if tank.isOverdrawn then throw tank.exceeded

namespace Derivation

variable {α β : Type}

/-! ### What a derivation leaves -/

/-- A value costs nothing. -/
@[simp] theorem runOn_pure (a : α) (tank : Tank) :
    runOn (pure a) tank = (.ok a, tank) := rfl

/-- A fault costs nothing. -/
@[simp] theorem runOn_throw (fault : Fault) (tank : Tank) :
    runOn (throw fault : Derivation α) tank = (.error fault, tank) := rfl

/-- A check costs nothing, whether it succeeds or not. -/
@[simp] theorem runOn_check (check : Except Fault α) (tank : Tank) :
    runOn (liftM check : Derivation α) tank = (check, tank) := rfl

/-- A derivation goes on with the tank that its first part leaves, unless that part ends with a
fault. -/
theorem runOn_bind (first : Derivation α) (next : α → Derivation β) (tank : Tank) :
    runOn (first >>= next) tank =
      match runOn first tank with
      | (.ok a, rest) => runOn (next a) rest
      | (.error fault, rest) => (.error fault, rest) := by
  simp only [runOn, ExceptT.run_bind, StateT.run_bind]
  rcases (ExceptT.run first).run tank with ⟨_ | _, _⟩ <;> rfl

/-- What is drawn is spent, even if the tank is then overdrawn. -/
theorem runOn_burn (amount limit spent : Int) (what : String) :
    runOn (burn (.int amount)) ⟨.int limit, what, .int spent⟩ =
      if limit < spent + amount then
        (.error (.budgetExceeded (.int limit) (.int (spent + amount)) what),
          ⟨.int limit, what, .int (spent + amount)⟩)
      else (.ok (), ⟨.int limit, what, .int (spent + amount)⟩) := by
  change runOn (if decide (limit < spent + amount) = true then
    throw (.budgetExceeded (.int limit) (.int (spent + amount)) what) else pure ())
      ⟨.int limit, what, .int (spent + amount)⟩ = _
  by_cases h : limit < spent + amount <;> simp [h]

end Derivation

namespace Tank

/-- What several derivations end with that share a tank, each with the tank it leaves to the
next. -/
def serve {α : Type} (tank : Tank) : List (Derivation α) → List (Except Fault α × Tank)
  | [] => []
  | derivation :: rest =>
    let answer := derivation.runOn tank
    answer :: serve answer.2 rest

end Tank

end Metered
