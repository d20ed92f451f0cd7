import Mathlib.Data.Int.Notation
import Mathlib.Data.Nat.Notation
import Metered.Tank

/-!
# What Derivations Cost

A derivation may read the tank that it draws on, but those of this library only draw
single units from it. Such a derivation has a **cost**: a number of units and an outcome
that depend on nothing but the derivation. A tank that can pay the cost is left with
exactly that much more spent and yields the outcome; any other tank is overdrawn by one
unit, and what it yields says so.

`Costs d n r` states this for a derivation `d`, its cost `n` and its outcome `r`, of every
tank with a whole limit and whole spending — a tank that is overdrawn already included,
where only a cost of zero can be paid. A derivation without end is `IsEndless`: it
overdraws every tank.

A derivation that does not read its tank at all is the same as drawing its cost unit by unit
and then ending with its outcome. `Draws d n r` states this; such a derivation also comes to
its end on a tank without a limit.

## Main results

* `costs_pure`, `costs_throw`, `costs_check`, `costs_burn`: the costs of the four ways in
  which a derivation is made;
* `Costs.bind`, `Costs.bind_error`, `Costs.map`: costs add up along a derivation;
* `Draws.costs`, `Draws.runOn_unbounded`: what drawing units comes to on the whole tanks and
  on one without a limit;
* `Costs.bind_endless`, `IsEndless.bind`: a derivation has no end if one of its parts that
  it comes to has none.
-/

namespace Metered

/-- The tank of a whole limit with a whole amount spent. -/
def Tank.whole (limit : ℤ) (what : String) (spent : ℤ) : Tank :=
  ⟨.int limit, what, .int spent⟩

/-- The tank without a limit, with a whole amount spent. -/
def Tank.unbounded (what : String) (spent : ℤ) : Tank :=
  ⟨.real (.infinite false), what, .int spent⟩

/-- The number of single units that a whole tank pays before it is overdrawn. -/
theorem Tank.capacity_whole (limit : ℤ) (what : String) (spent : ℤ) :
    (Tank.whole limit what spent).capacity = (limit - spent).toNat := rfl

/-- A fresh tank of a natural limit. -/
theorem Tank.ofLimit_natCast (limit : ℕ) (what : String) :
    Tank.ofLimit (.int limit) what = .ok (.whole limit what 0) := by
  have hbelow : (Number.int limit).isBelow 0 = false :=
    decide_eq_false (Int.not_lt.mpr (Int.natCast_nonneg limit))
  rw [Tank.ofLimit, hbelow]
  rfl

/-- There is no tank of a limit below zero. -/
theorem Tank.ofLimit_of_neg {limit : ℤ} (h : limit < 0) (what : String) :
    Tank.ofLimit (.int limit) what = .error (.negativeLimit (.int limit)) := by
  have hbelow : (Number.int limit).isBelow 0 = true := decide_eq_true h
  rw [Tank.ofLimit, hbelow]
  rfl

namespace Derivation

variable {α β : Type}

/-- What a derivation that draws single units ends with where the tank falls short: the
tank is left one unit past its limit, or past what was spent already if that was more. -/
def overdraw (limit : ℤ) (what : String) (spent : ℤ) : Except Fault α × Tank :=
  (.error (.budgetExceeded (.int limit) (.int (max limit spent + 1)) what),
    .whole limit what (max limit spent + 1))

/-- **Cost and outcome.** A derivation with `Costs d n r` yields `r` for `n` units on every
whole tank that has these left, and overdraws every other whole tank. -/
structure Costs (derivation : Derivation α) (cost : ℕ) (outcome : Except Fault α) : Prop where
  paid : ∀ (limit : ℤ) (what : String) (spent : ℤ), cost ≤ (limit - spent).toNat →
    derivation.runOn (.whole limit what spent) = (outcome, .whole limit what (spent + cost))
  short : ∀ (limit : ℤ) (what : String) (spent : ℤ), (limit - spent).toNat < cost →
    derivation.runOn (.whole limit what spent) = overdraw limit what spent

/-- A derivation without end overdraws every whole tank. -/
def IsEndless (derivation : Derivation α) : Prop :=
  ∀ (limit : ℤ) (what : String) (spent : ℤ),
    derivation.runOn (.whole limit what spent) = overdraw limit what spent

/-! ### The costs of simple derivations -/

/-- A derivation that leaves every tank as it is costs nothing. -/
theorem costs_zero {derivation : Derivation α} {outcome : Except Fault α}
    (h : ∀ tank, derivation.runOn tank = (outcome, tank)) : Costs derivation 0 outcome where
  paid limit what spent _ := by
    rw [h]
    simp
  short limit what spent hlt := absurd hlt (Nat.not_lt_zero _)

/-- A value costs nothing. -/
theorem costs_pure (a : α) : Costs (pure a) 0 (.ok a) :=
  costs_zero fun tank => runOn_pure a tank

/-- A fault costs nothing. -/
theorem costs_throw (fault : Fault) : Costs (throw fault : Derivation α) 0 (.error fault) :=
  costs_zero fun tank => runOn_throw fault tank

/-- A check costs nothing, whether it succeeds or not. -/
theorem costs_check (check : Except Fault α) : Costs (liftM check) 0 check :=
  costs_zero fun tank => runOn_check check tank

/-- Drawing a unit costs one. -/
theorem costs_burn : Costs (burn 1) 1 (.ok ()) where
  paid limit what spent hle := by
    have h := runOn_burn 1 limit spent what
    rw [if_neg (by omega)] at h
    exact h
  short limit what spent hlt := by
    have h := runOn_burn 1 limit spent what
    have hmax : max limit spent = spent := by omega
    rw [if_pos (by omega)] at h
    rw [overdraw, hmax]
    exact h

/-- An equation of costs and outcomes carries a cost over. -/
theorem Costs.cast {derivation : Derivation α} {m n : ℕ} {r s : Except Fault α}
    (h : Costs derivation m r) (hcost : m = n) (houtcome : r = s) : Costs derivation n s := by
  subst hcost houtcome
  exact h

/-- A derivation costs what one costs that does the same on every whole tank. -/
theorem Costs.congr {first second : Derivation α} {n : ℕ} {outcome : Except Fault α}
    (hagree : ∀ (limit : ℤ) (what : String) (spent : ℤ),
      first.runOn (.whole limit what spent) = second.runOn (.whole limit what spent))
    (h : Costs second n outcome) : Costs first n outcome where
  paid limit what spent hle := (hagree limit what spent).trans (h.paid limit what spent hle)
  short limit what spent hlt := (hagree limit what spent).trans (h.short limit what spent hlt)

/-- A tank that is not overdrawn is left one unit past its limit. -/
theorem overdraw_of_le {limit spent : ℤ} (h : spent ≤ limit) (what : String) :
    (overdraw limit what spent : Except Fault α × Tank) =
      (.error (.budgetExceeded (.int limit) (.int (limit + 1)) what),
        .whole limit what (limit + 1)) := by
  rw [overdraw, Int.max_eq_left h]

/-- A cost on a tank that is not overdrawn, with so many units remaining. -/
theorem Costs.runOn_remaining {derivation : Derivation α} {n : ℕ} {outcome : Except Fault α}
    (h : Costs derivation n outcome) (limit : ℤ) (what : String) (remaining : ℕ) :
    derivation.runOn (.whole limit what (limit - remaining)) =
      if n ≤ remaining then (outcome, .whole limit what (limit - remaining + n))
      else (.error (.budgetExceeded (.int limit) (.int (limit + 1)) what),
        .whole limit what (limit + 1)) := by
  by_cases hle : n ≤ remaining
  · rw [if_pos hle]
    exact h.paid limit what (limit - remaining) (by omega)
  · rw [if_neg hle, h.short limit what (limit - remaining) (by omega), overdraw_of_le (by omega)]

/-! ### Costs add up -/

/-- A derivation goes on with the value of its first part and the tank which that part
leaves. -/
theorem runOn_bind_of_ok {first : Derivation α} {tank rest : Tank} {a : α}
    (next : α → Derivation β) (h : first.runOn tank = (.ok a, rest)) :
    (first >>= next).runOn tank = (next a).runOn rest := by
  rw [runOn_bind, h]

/-- A derivation ends with the fault of its first part and the tank which that part
leaves. -/
theorem runOn_bind_of_error {first : Derivation α} {tank rest : Tank} {fault : Fault}
    (next : α → Derivation β) (h : first.runOn tank = (.error fault, rest)) :
    (first >>= next).runOn tank = (.error fault, rest) := by
  rw [runOn_bind, h]

/-- A function of the value changes neither a fault nor the tank. -/
theorem runOn_map (f : α → β) (derivation : Derivation α) (tank : Tank) :
    (f <$> derivation).runOn tank =
      ((derivation.runOn tank).1.map f, (derivation.runOn tank).2) := by
  rw [← bind_pure_comp, runOn_bind]
  rcases derivation.runOn tank with ⟨_ | _, rest⟩ <;> rfl

/-- It does not show how much of what a tank could pay was drawn before it fell short. -/
theorem overdraw_add {limit spent : ℤ} {m : ℕ} (h : m ≤ (limit - spent).toNat) (what : String) :
    (overdraw limit what (spent + m) : Except Fault α × Tank) = overdraw limit what spent := by
  have hmax : max limit (spent + m) = max limit spent := by omega
  rw [overdraw, overdraw, hmax]

/-- **Costs add up.** Where the first part of a derivation yields a value, the cost of the
whole is the cost of that part and of what follows on the value. -/
theorem Costs.bind {first : Derivation α} {next : α → Derivation β} {m n : ℕ} {a : α}
    {outcome : Except Fault β} (hfirst : Costs first m (.ok a))
    (hnext : Costs (next a) n outcome) : Costs (first >>= next) (m + n) outcome where
  paid limit what spent hle := by
    rw [runOn_bind_of_ok next (hfirst.paid limit what spent (by omega)),
      hnext.paid limit what (spent + m) (by omega), Int.natCast_add, Int.add_assoc]
  short limit what spent hlt := by
    by_cases hm : m ≤ (limit - spent).toNat
    · rw [runOn_bind_of_ok next (hfirst.paid limit what spent hm),
        hnext.short limit what (spent + m) (by omega), overdraw_add hm]
    · exact runOn_bind_of_error next (hfirst.short limit what spent (by omega))

/-- Where the first part of a derivation ends with a fault, nothing follows it. -/
theorem Costs.bind_error {first : Derivation α} {m : ℕ} {fault : Fault}
    (hfirst : Costs first m (.error fault)) (next : α → Derivation β) :
    Costs (first >>= next) m (.error fault) where
  paid limit what spent hle := runOn_bind_of_error next (hfirst.paid limit what spent hle)
  short limit what spent hlt := runOn_bind_of_error next (hfirst.short limit what spent hlt)

/-- A unit is drawn before what follows it. -/
theorem Costs.burn_bind {next : Unit → Derivation β} {n : ℕ} {outcome : Except Fault β}
    (hnext : Costs (next ()) n outcome) : Costs (burn 1 >>= next) (n + 1) outcome :=
  (costs_burn.bind hnext).cast (Nat.add_comm 1 n) rfl

/-- A check that succeeds does not add to the cost of what follows it. -/
theorem Costs.check_bind {check : Except Fault α} {a : α} {next : α → Derivation β} {n : ℕ}
    {outcome : Except Fault β} (hcheck : check = .ok a) (hnext : Costs (next a) n outcome) :
    Costs (liftM check >>= next) n outcome :=
  (((costs_check check).cast rfl hcheck).bind hnext).cast (Nat.zero_add n) rfl

/-- Nothing follows a check that fails, and nothing is paid. -/
theorem Costs.check_bind_error {check : Except Fault α} {fault : Fault}
    (hcheck : check = .error fault) (next : α → Derivation β) :
    Costs (liftM check >>= next) 0 (.error fault) :=
  ((costs_check check).cast rfl hcheck).bind_error next

/-- A function of the value does not change the cost. -/
theorem Costs.map {derivation : Derivation α} {n : ℕ} {outcome : Except Fault α} (f : α → β)
    (h : Costs derivation n outcome) : Costs (f <$> derivation) n (f <$> outcome) := by
  rw [← bind_pure_comp]
  cases outcome with
  | error fault => exact h.bind_error _
  | ok a =>
      have hpure : Costs ((pure ∘ f) a) 0 (.ok (f a)) := costs_pure (f a)
      exact h.bind hpure

/-! ### Units and nothing else -/

/-- The derivation that draws so many single units and then ends with an outcome. -/
def units (n : ℕ) (outcome : Except Fault α) : Derivation α :=
  match n with
  | 0 => liftM outcome
  | n + 1 => burn 1 >>= fun _ => units n outcome

/-- **Units and outcome.** A derivation with `Draws d n r` draws `n` single units and ends with
`r`: it is the derivation that does just this, and so does the same on every tank whatever. -/
def Draws (derivation : Derivation α) (n : ℕ) (outcome : Except Fault α) : Prop :=
  derivation = units n outcome

/-- A value draws nothing. -/
theorem draws_pure (a : α) : Draws (pure a) 0 (.ok a) := rfl

/-- An equation of units and outcomes carries over what a derivation draws. -/
theorem Draws.cast {derivation : Derivation α} {m n : ℕ} {r s : Except Fault α}
    (h : Draws derivation m r) (hunits : m = n) (houtcome : r = s) : Draws derivation n s := by
  subst hunits houtcome
  exact h

/-- **Units add up** along a derivation. -/
theorem Draws.bind {first : Derivation α} {next : α → Derivation β} {m n : ℕ} {a : α}
    {outcome : Except Fault β} (hfirst : Draws first m (.ok a))
    (hnext : Draws (next a) n outcome) : Draws (first >>= next) (m + n) outcome := by
  rw [hfirst, Draws]
  clear hfirst
  induction m with
  | zero =>
      rw [Nat.zero_add, ← hnext]
      exact pure_bind a next
  | succ m ih => rw [units, bind_assoc, ih, Nat.succ_add, units]

/-- A unit is drawn before what follows it. -/
theorem Draws.burn_bind {next : Unit → Derivation β} {n : ℕ} {outcome : Except Fault β}
    (hnext : Draws (next ()) n outcome) : Draws (burn 1 >>= next) (n + 1) outcome :=
  congrArg (burn 1 >>= ·) (funext fun _ => hnext)

/-- A check that succeeds draws nothing. -/
theorem Draws.check_bind {check : Except Fault α} {a : α} {next : α → Derivation β} {n : ℕ}
    {outcome : Except Fault β} (hcheck : check = .ok a) (hnext : Draws (next a) n outcome) :
    Draws (liftM check >>= next) n outcome := by
  subst hcheck
  exact (pure_bind a next).trans hnext

/-- A function of the value draws nothing. -/
theorem Draws.map {derivation : Derivation α} {n : ℕ} {a : α} (f : α → β)
    (h : Draws derivation n (.ok a)) : Draws (f <$> derivation) n (.ok (f a)) := by
  rw [← bind_pure_comp]
  have hpure : Draws ((pure ∘ f) a) 0 (.ok (f a)) := draws_pure (f a)
  exact h.bind hpure

/-- What a derivation draws is its cost on the whole tanks. -/
theorem Draws.costs {derivation : Derivation α} {n : ℕ} {outcome : Except Fault α}
    (h : Draws derivation n outcome) : Costs derivation n outcome := by
  rw [h]
  clear h
  induction n with
  | zero => exact costs_check outcome
  | succ n ih => exact ih.burn_bind

/-- **On an unbounded tank** a derivation that draws units ends with its outcome. -/
theorem Draws.runOn_unbounded {derivation : Derivation α} {n : ℕ} {outcome : Except Fault α}
    (h : Draws derivation n outcome) (what : String) (spent : ℤ) :
    derivation.runOn (.unbounded what spent) = (outcome, .unbounded what (spent + n)) := by
  rw [h]
  clear h
  induction n generalizing spent with
  | zero =>
      rw [units, runOn_check, Int.natCast_zero, Int.add_zero]
  | succ n ih =>
      have hunit : (burn 1).runOn (.unbounded what spent) =
          (.ok (), .unbounded what (spent + 1)) := rfl
      rw [units, runOn_bind_of_ok _ hunit, ih, Int.natCast_add, Int.natCast_one,
        Int.add_assoc, Int.add_comm 1]

/-! ### Derivations without end -/

/-- Where a part without end follows on the first part of a derivation, the whole has no
end. -/
theorem Costs.bind_endless {first : Derivation α} {next : α → Derivation β} {m : ℕ} {a : α}
    (hfirst : Costs first m (.ok a)) (hnext : IsEndless (next a)) :
    IsEndless (first >>= next) := by
  intro limit what spent
  by_cases hm : m ≤ (limit - spent).toNat
  · rw [runOn_bind_of_ok next (hfirst.paid limit what spent hm),
      hnext limit what (spent + m), overdraw_add hm]
  · exact runOn_bind_of_error next (hfirst.short limit what spent (by omega))

/-- Nothing follows a part without end. -/
theorem IsEndless.bind {first : Derivation α} (h : IsEndless first) (next : α → Derivation β) :
    IsEndless (first >>= next) :=
  fun limit what spent => runOn_bind_of_error next (h limit what spent)

/-- A function of the value does not give a derivation an end. -/
theorem IsEndless.map {derivation : Derivation α} (h : IsEndless derivation) (f : α → β) :
    IsEndless (f <$> derivation) := by
  rw [← bind_pure_comp]
  exact h.bind _

end Derivation

end Metered
