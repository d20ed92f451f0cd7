import Mathlib.Tactic.Ring
import Metered.Proofs.Alone

/-!
# The Cost of Unary Arithmetic

Every operation of `Metered.Unary` yields its arithmetical value at a cost that is given
in closed form. The costs are those of the sequences that stand for the operands: growing
`n` cells costs `n`, moving or popping them costs as much again, and every round of a loop
costs one unit more.

The loops of `divide` and `divides` are bounded in their definitions. The bound is one
more than the first remainder, and every round takes at least one cell away; so the lemmas
on `countParts` and `comesOut` hold of every bound above the remainder, and the cost does
not depend on it.

## Main results

* `draws_add`, `draws_subtract`, `draws_isLess`: the operations without a loop;
* `draws_multiply`: the product, where the number of rounds is set by the second operand;
* `draws_divide`, `draws_divides`: division, at the same cost `divisionCost` for both;
* `Costs.onFreshTank`: what is paid where no tank is given;
* `Query.base_operations_exact`: the operations without a loop on every tank;
* `Query.multiplication_exact`: products on every tank, and those that are found in one order of
  the operands only;
* `Query.division_exact`: the quotient and the test for a divisor agree, on every tank.
-/

open Metered.Derivation

namespace Metered.Unary

/-! ### Sequences -/

/-- Growing `n` cells costs `n`. -/
theorem draws_grow (cells : List ℕ) (n : ℕ) :
    Draws (grow cells n) n (.ok (List.replicate n 0 ++ cells)) := by
  induction n generalizing cells with
  | zero => exact draws_pure cells
  | succ n ih =>
      refine (ih (0 :: cells)).burn_bind.cast rfl ?_
      rw [List.replicate_succ', List.append_assoc, List.singleton_append]

/-- The sequence of `n` cells costs `n`. -/
theorem draws_tally (n : ℕ) : Draws (tally n) n (.ok (List.replicate n 0)) :=
  (draws_grow [] n).cast rfl (by rw [List.append_nil])

/-- Popping `n` times costs `n`, however many cells there are. -/
theorem draws_shrink (cells : List ℕ) (n : ℕ) :
    Draws (shrink cells n) n (.ok (cells.drop n)) := by
  induction n generalizing cells with
  | zero => exact draws_pure cells
  | succ n ih => exact (ih cells.tail).burn_bind.cast rfl (by rw [List.drop_tail])

/-- Moving items one by one onto a sequence costs one unit for each. -/
theorem draws_moveOnto {α : Type} (moved items : List α) :
    Draws (Sequence.moveOnto moved items) items.length (.ok (moved.reverse ++ items)) := by
  induction items generalizing moved with
  | nil => exact (draws_pure moved.reverse).cast rfl (by rw [List.append_nil])
  | cons x rest ih =>
      refine (ih (x :: moved)).burn_bind.cast rfl ?_
      rw [List.reverse_cons, List.append_assoc, List.singleton_append]

/-- Joining two sequences costs the length of the second. -/
theorem draws_join {α : Type} (first second : List α) :
    Draws (Sequence.join first second) second.length (.ok (first ++ second)) :=
  (draws_moveOnto first.reverse second).cast rfl (by rw [List.reverse_reverse])

/-! ### Sums, differences and products -/

/-- A sum costs its first operand once and its second one twice. -/
theorem draws_add (a b : ℕ) : Draws (add a b) (a + 2 * b) (.ok (a + b)) := by
  have hjoin := draws_join (List.replicate a 0) (List.replicate b 0)
  refine Draws.cast ((draws_tally a).bind ((draws_tally b).bind (hjoin.bind (draws_pure _)))) ?_ ?_
  · rw [List.length_replicate]
    omega
  · rw [List.length_append, List.length_replicate, List.length_replicate]

/-- A difference costs the sum of its operands, also where it stops at zero. -/
theorem draws_subtract (a b : ℕ) : Draws (subtract a b) (a + b) (.ok (a - b)) := by
  have hshrink := draws_shrink (List.replicate a 0) b
  refine Draws.cast ((draws_tally a).bind (hshrink.bind (draws_pure _))) rfl ?_
  rw [List.length_drop, List.length_replicate]

/-- A comparison costs the sum of its operands. -/
theorem draws_isLess (a b : ℕ) : Draws (isLess a b) (a + b) (.ok (decide (a < b))) := by
  refine Draws.cast ((draws_subtract b a).bind (draws_pure _)) (Nat.add_comm b a) ?_
  by_cases h : a < b
  · have hrest : b - a ≠ 0 := by omega
    simp [h, hrest]
  · have hrest : b - a = 0 := by omega
    simp [h, hrest]

/-- Adding `a` to a total `n` times: the total grows by `a` with every round, and each
round pays for it twice. -/
theorem draws_addTimes (a total n : ℕ) :
    Draws (addTimes a total n) (n * (1 + 2 * total + a * n)) (.ok (total + a * n)) := by
  induction n generalizing total with
  | zero => exact (draws_pure total).cast (by ring) (by rw [Nat.mul_zero, Nat.add_zero])
  | succ n ih =>
      refine ((draws_add a total).bind (ih (a + total))).burn_bind.cast (by ring) ?_
      congr 1
      ring

/-- A product costs nothing if an operand is zero; otherwise it takes one round less than
its second operand says. -/
def productCost (a b : ℕ) : ℕ :=
  if a = 0 ∨ b = 0 then 0 else (b - 1) * (1 + a + a * b)

/-- **Multiplication.** -/
theorem draws_multiply (a b : ℕ) : Draws (multiply a b) (productCost a b) (.ok (a * b)) := by
  rw [multiply, productCost]
  split_ifs with h
  · refine (draws_pure 0).cast rfl ?_
    obtain rfl | rfl := h
    · rw [Nat.zero_mul]
    · rw [Nat.mul_zero]
  · obtain ⟨n, rfl⟩ : ∃ n, b = n + 1 := ⟨b - 1, by omega⟩
    rw [Nat.add_sub_cancel]
    refine (draws_addTimes a a n).cast (by ring) ?_
    congr 1
    ring

/-! ### Division -/

/-- **The cost of dividing `a` by `b`**, in terms of the quotient and the remainder. Where
`b` goes into `a` a whole number of times, the last round finds the two equal and saves a
comparison. -/
def divisionCost (a b : ℕ) : ℕ :=
  let q := a / b
  let r := a % b
  if 0 < a ∧ r = 0 then q + b * (q - 1) * (q + 4)
  else (q + 1) + b * (q * q + 3 * q + 1) + r * (2 * q + 1)

/-- A dividend equal to the divisor is found out in the first round. -/
theorem divisionCost_self {b : ℕ} (hb : 0 < b) : divisionCost b b = 1 := by
  simp [divisionCost, hb, Nat.div_self hb]

/-- A dividend below the divisor takes one comparison. -/
theorem divisionCost_of_lt {a b : ℕ} (h : a < b) : divisionCost a b = 1 + (a + b) := by
  have hnot : ¬ (0 < a ∧ a = 0) := by omega
  simp only [divisionCost, Nat.div_eq_of_lt h, Nat.mod_eq_of_lt h, if_neg hnot]
  ring

/-- A round that takes the divisor away pays for a comparison and a subtraction. -/
theorem divisionCost_of_gt {a b : ℕ} (hb : 0 < b) (h : b < a) :
    divisionCost a b = 1 + (a + b) + (a + b) + divisionCost (a - b) b := by
  obtain ⟨c, rfl⟩ : ∃ c, a = c + b := ⟨a - b, by omega⟩
  have hc : 0 < c := by omega
  have hca : 0 < c + b := by omega
  have hdiv : b * (c / b) + c % b = c := Nat.div_add_mod c b
  simp only [divisionCost, Nat.add_sub_cancel, Nat.add_div_right c hb, Nat.add_mod_right, hc,
    hca, true_and]
  generalize c / b = q at hdiv ⊢
  generalize c % b = r at hdiv ⊢
  subst hdiv
  split_ifs with hr
  · -- without a remainder the quotient of what is left is not zero
    subst hr
    obtain ⟨p, rfl⟩ : ∃ p, q = p + 1 := by
      cases q with
      | zero => simp at hc
      | succ p => exact ⟨p, rfl⟩
    simp only [Nat.add_sub_cancel]
    ring
  · ring

/-- **One round of a division**: the loop ends with `found` where the remainder equals the
divisor and with `stop` where it is below it, and goes on with what is left otherwise. If
what follows costs what dividing the rest costs, the round and what follows it cost what
dividing the remainder costs. -/
theorem draws_round {α : Type} {b remainder : ℕ} (hb : 0 < b) {found stop value : α}
    {next : ℕ → Derivation α} (heq : remainder = b → found = value)
    (hlt : remainder < b → stop = value)
    (hgt : b < remainder →
      Draws (next (remainder - b)) (divisionCost (remainder - b) b) (.ok value)) :
    Draws (do
      burn 1
      if remainder = b then pure found
      else if ← isLess remainder b then pure stop
      else do
        let rest ← subtract remainder b
        next rest) (divisionCost remainder b) (.ok value) := by
  obtain h | h | h := Nat.lt_trichotomy remainder b
  · have hne : remainder ≠ b := by omega
    refine Draws.cast (Draws.burn_bind (n := remainder + b) ?_) ?_ rfl
    · rw [if_neg hne]
      refine Draws.cast ((draws_isLess remainder b).bind (n := 0) ?_) rfl rfl
      rw [if_pos (decide_eq_true h), hlt h]
      exact draws_pure value
    · rw [divisionCost_of_lt h, Nat.add_comm]
  · subst h
    rw [divisionCost_self hb]
    refine Draws.burn_bind (n := 0) ?_
    rw [if_pos rfl, heq rfl]
    exact draws_pure value
  · have hne : remainder ≠ b := by omega
    have hnot : ¬ decide (remainder < b) = true := by simp; omega
    refine Draws.cast (Draws.burn_bind
      (n := (remainder + b) + ((remainder + b) + divisionCost (remainder - b) b)) ?_) ?_ rfl
    · rw [if_neg hne]
      refine (draws_isLess remainder b).bind ?_
      rw [if_neg hnot]
      exact (draws_subtract remainder b).bind (hgt h)
    · rw [divisionCost_of_gt hb h]
      omega

/-- Counting on from `count` how often the divisor can be taken away. -/
theorem draws_countParts {b : ℕ} (hb : 0 < b) (rounds remainder count : ℕ)
    (h : remainder < rounds) :
    Draws (countParts b rounds remainder count) (divisionCost remainder b)
      (.ok (count + remainder / b)) := by
  induction rounds generalizing remainder count with
  | zero => exact absurd h (Nat.not_lt_zero _)
  | succ rounds ih =>
      rw [countParts]
      refine draws_round hb ?_ ?_ ?_
      · rintro rfl
        rw [Nat.div_self hb]
      · intro hlt
        rw [Nat.div_eq_of_lt hlt, Nat.add_zero]
      · intro hgt
        refine (ih (remainder - b) (count + 1) (by omega)).cast rfl ?_
        rw [Nat.div_eq_sub_div hb hgt.le, Nat.add_assoc, Nat.add_comm 1]

/-- **Floor division.** -/
theorem draws_divide (a : ℕ) {b : ℕ} (hb : 0 < b) :
    Draws (divide a b) (divisionCost a b) (.ok (a / b)) := by
  rw [divide, if_neg (by omega)]
  exact (draws_countParts hb (a + 1) a 0 (by omega)).cast rfl (by rw [Nat.zero_add])

/-! ### Divisibility -/

/-- Taking the divisor away until the remainder equals it or is below it. The loop is not
entered with a remainder of zero, nor does it get there. -/
theorem draws_comesOut {a : ℕ} (ha : 0 < a) (rounds remainder : ℕ) (hpos : 0 < remainder)
    (h : remainder < rounds) :
    Draws (comesOut a rounds remainder) (divisionCost remainder a)
      (.ok (decide (a ∣ remainder))) := by
  induction rounds generalizing remainder with
  | zero => exact absurd h (Nat.not_lt_zero _)
  | succ rounds ih =>
      rw [comesOut]
      refine draws_round ha ?_ ?_ ?_
      · rintro rfl
        simp
      · intro hlt
        have hnot : ¬ a ∣ remainder := Nat.not_dvd_of_pos_of_lt hpos hlt
        simp [hnot]
      · intro hgt
        have hiff : a ∣ remainder - a ↔ a ∣ remainder :=
          Nat.dvd_sub_self_right.trans (or_iff_left (by omega))
        exact (ih (remainder - a) (by omega) (by omega)).cast rfl (by simp only [hiff])

/-- What it costs to find out whether `a` divides `b`: zero is a multiple of everything. -/
def divisibilityCost (a b : ℕ) : ℕ :=
  if b = 0 then 0 else divisionCost b a

/-- **Divisibility.** -/
theorem draws_divides {a : ℕ} (ha : 0 < a) (b : ℕ) :
    Draws (divides a b) (divisibilityCost a b) (.ok (decide (a ∣ b))) := by
  rw [divides, divisibilityCost]
  rw [if_neg (by omega)]
  split_ifs with hb
  · subst hb
    exact (draws_pure true).cast rfl (by simp)
  · exact draws_comesOut ha (b + 1) b (by omega) (by omega)

end Metered.Unary

namespace Metered

/-! ### Fresh tanks -/

/-- What a derivation ends with on a fresh tank. -/
def Settings.onFreshTank {α : Type} (settings : Settings) (derivation : Derivation α) :
    Except Fault α := do
  let tank ← settings.tank
  (derivation.runOn tank).1

/-- **Fresh tanks.** A fresh tank pays every cost up to the limit that is set; there is none if
that limit is below zero. -/
theorem Derivation.Costs.onFreshTank {α : Type} {derivation : Derivation α} {n : ℕ}
    {outcome : Except Fault α} (h : Costs derivation n outcome) (settings : Settings) :
    settings.onFreshTank derivation =
      if (n : ℤ) ≤ settings.spending then outcome
      else if settings.spending < 0 then .error (.negativeLimit (.int settings.spending))
      else .error (.budgetExceeded (.int settings.spending) (.int (settings.spending + 1))
        Tank.standardPurpose) := by
  obtain ⟨spending, transitions⟩ := settings
  by_cases hneg : spending < 0
  · rw [if_neg (by simp only; omega), if_pos hneg, Settings.onFreshTank, Settings.tank,
      Tank.ofLimit_of_neg hneg]
    rfl
  · obtain ⟨limit, rfl⟩ := Int.eq_ofNat_of_zero_le (Int.not_lt.mp hneg)
    have hrun := h.runOn_remaining limit Tank.standardPurpose limit
    rw [Int.sub_self] at hrun
    rw [if_neg hneg, Settings.onFreshTank, Settings.tank, Tank.ofLimit_natCast]
    change ((derivation.runOn (.whole limit Tank.standardPurpose 0))).1 = _
    rw [hrun]
    simp only [Int.ofNat_le]
    split_ifs <;> rfl

/-! ### Natural operands -/

/-- An integer that is not below zero is the natural operand it stands for. -/
theorem Operand.natural_natCast (op : String) (n : ℕ) : Operand.natural op (.int n) = .ok n := by
  have hnot : ¬ (n : ℤ) < 0 := by omega
  simp only [Operand.natural, if_neg hnot, Int.toNat_natCast]

namespace Query

/-- The check of an operand does not add to the cost. -/
theorem costs_onNatural {α : Type} (op : String) {n cost : ℕ} {outcome : Except Fault α}
    {derivation : ℕ → Derivation α} (h : Costs (derivation n) cost outcome) :
    Costs (onNatural op (.int n) derivation) cost outcome :=
  Costs.check_bind (Operand.natural_natCast op n) h

/-- The checks of two operands draw nothing. -/
theorem draws_onNaturals {α : Type} (op : String) {m n units : ℕ} {outcome : Except Fault α}
    {derivation : ℕ → ℕ → Derivation α} (h : Draws (derivation m n) units outcome) :
    Draws (onNaturals op (.int m) (.int n) derivation) units outcome :=
  Draws.check_bind (Operand.natural_natCast op m)
    (Draws.check_bind (Operand.natural_natCast op n) h)

/-! ### The base operations on every tank -/

/-- **Exact payment.** On a tank that can pay `cost`, the query is answered by `value` and exactly
the cost is spent; any other tank is left one unit past its limit, and the answer is that. -/
def IsPaidExactly (query : Query) (cost : ℕ) (value : Datum) : Prop :=
  ∀ (limit : ℤ) (what : String) (remaining : ℕ),
    query.derive.runOn (.whole limit what (limit - remaining)) =
      if cost ≤ remaining then (.ok value, .whole limit what (limit - remaining + cost))
      else (.error (.budgetExceeded (.int limit) (.int (limit + 1)) what),
        .whole limit what (limit + 1))

/-- **The base operations, exactly**: joining two sequences, the sequence of a number, the sum, the
difference, which stops at zero, and the comparison. Of the operands of a sum the second one is paid
for twice, since its cells are grown and then moved; a difference costs its two operands also where
nothing is left. -/
theorem base_operations_exact (a b : ℕ) (first second : List Datum) :
    IsPaidExactly (.join (.tuple first) (.tuple second)) second.length
      (.tuple (first ++ second)) ∧
    IsPaidExactly (.tally (.int a)) a (.tuple (List.replicate a (.int 0))) ∧
    IsPaidExactly (.add (.int a) (.int b)) (a + 2 * b) (.int (a + b)) ∧
    IsPaidExactly (.subtract (.int a) (.int b)) (a + b) (.int (max (a - b) 0)) ∧
    IsPaidExactly (.isLess (.int a) (.int b)) (a + b) (.bool (decide (a < b))) := by
  have hjoin : Draws (joinData (.tuple first) (.tuple second)) second.length
      (.ok (first ++ second)) :=
    Draws.check_bind rfl (Draws.check_bind rfl (Unary.draws_join first second))
  have htally : Costs (derive (.tally (.int a))) a (.ok (.tuple (List.replicate a (.int 0)))) := by
    have hcells : (List.replicate a 0).map ofNat = List.replicate a (.int 0) := List.map_replicate
    rw [← hcells]
    exact Costs.bind (n := 0) (costs_onNatural "pad" (Unary.draws_tally a).costs) (costs_pure _)
  have hadd := (draws_onNaturals "add" (Unary.draws_add a b)).map ofNat
  have hsubtract : Draws (derive (.subtract (.int a) (.int b))) (a + b)
      (.ok (.int (max (a - b) 0))) := by
    have hvalue : ofNat (a - b) = .int (max (a - b) 0) := congrArg Datum.int (by omega)
    rw [← hvalue]
    exact (draws_onNaturals "subtract" (Unary.draws_subtract a b)).map ofNat
  -- the operands of a comparison are those of the subtraction in the other order
  have hless : Draws (onNaturals "subtract" (.int b) (.int a) fun n m => Unary.isLess m n) (a + b)
      (.ok (decide (a < b))) :=
    draws_onNaturals "subtract" (Unary.draws_isLess a b)
  exact ⟨(hjoin.map Datum.tuple).costs.runOn_remaining, htally.runOn_remaining,
    hadd.costs.runOn_remaining, hsubtract.costs.runOn_remaining,
    (hless.map Datum.bool).costs.runOn_remaining⟩

/-! ### Multiplication on every tank -/

/-- **Multiplication, exactly.** On a tank that can pay `cost`, the query for the product is
answered by it, and exactly the cost is spent; any other tank is left one unit past its limit, and
the answer is that. So a product of positive operands that is asked for alone, which is then asked
of a fresh tank, is found exactly if the limit that is set covers the cost. The cost is not
symmetric: whatever limit is set, there are two numbers whose product is found in one order and not
in the other. -/
theorem multiplication_exact (a b : ℕ) (limit : ℤ) (what : String) (remaining : ℕ) :
    let query (a b : ℕ) := Query.multiply (.int a) (.int b)
    let cost := if a = 0 ∨ b = 0 then 0 else (b - 1) * (1 + a + a * b)
    ((query a b).derive.runOn (.whole limit what (limit - remaining)) =
      if cost ≤ remaining then
        (.ok (.int (a * b)), .whole limit what (limit - remaining + cost))
      else
        (.error (.budgetExceeded (.int limit) (.int (limit + 1)) what),
          .whole limit what (limit + 1))) ∧
    (query a b).answer = ({} : Settings).onFreshTank (query a b).derive ∧
    (∀ settings : Settings, 0 < a → 0 < b →
      (query a b).answer settings = settings.onFreshTank (query a b).derive ∧
      settings.onFreshTank (query a b).derive =
        if ((b - 1) * (1 + a + a * b) : ℕ) ≤ settings.spending then .ok (.int (a * b))
        else if settings.spending < 0 then .error (.negativeLimit (.int settings.spending))
        else .error (.budgetExceeded (.int settings.spending) (.int (settings.spending + 1))
          Tank.standardPurpose)) ∧
    ∀ spending : ℕ, ∃ m n : ℕ, 0 < m ∧ 0 < n ∧
      let settings : Settings := { spending := spending }
      settings.onFreshTank (query m n).derive = .ok (.int (m * n)) ∧
      settings.onFreshTank (query n m).derive =
        .error (.budgetExceeded (.int spending) (.int (spending + 1)) Tank.standardPurpose) := by
  intro query cost
  have hcosts (m n : ℕ) :
      Costs (query m n).derive (Unary.productCost m n) (.ok (.int (m * n))) := by
    have hdraws := (draws_onNaturals "multiply" (Unary.draws_multiply m n)).map ofNat
    exact hdraws.costs.cast rfl (by rw [ofNat, Int.natCast_mul])
  have hpositive {m n : ℕ} (hm : 0 < m) (hn : 0 < n) :
      Unary.productCost m n = (n - 1) * (1 + m + m * n) := by
    rw [Unary.productCost, if_neg (by omega)]
  refine ⟨(hcosts a b).runOn_remaining limit what remaining, answer_of_ownTank rfl, ?_, ?_⟩
  · intro settings ha hb
    have hopening : (query a b).opening = .ok none := by
      rw [opening, checkNaturals, Operand.natural_natCast, Operand.natural_natCast]
      exact congrArg Except.ok (if_neg (by omega))
    rw [← hpositive ha hb]
    exact ⟨answer_of_opening hopening settings, (hcosts a b).onFreshTank settings⟩
  · intro spending
    -- multiplying by one is free, and multiplying one by a number is not
    have hfree : Unary.productCost (spending + 2) 1 = 0 := by
      rw [hpositive (by omega) (by omega), Nat.sub_self, Nat.zero_mul]
    have hdear : spending < Unary.productCost 1 (spending + 2) := by
      rw [hpositive (by omega) (by omega)]
      exact lt_of_lt_of_le (by omega) (Nat.le_mul_of_pos_right _ (by omega))
    refine ⟨spending + 2, 1, by omega, by omega, ?_, ?_⟩
    · rw [(hcosts _ _).onFreshTank, hfree, if_pos (by simp only; omega)]
    · rw [(hcosts _ _).onFreshTank, if_neg (by simp only; omega), if_neg (by simp only; omega)]

/-- The product of two and a thousand is found alone only if the thousand comes first. -/
theorem multiplication_exact_thousand :
    0 < 1000 ∧ 0 < 2 ∧
    (derive (.multiply (.int 3) (.int 4))).runOn (.whole 48 "evaluation" 0) =
      (.ok (.int 12), .whole 48 "evaluation" 48) ∧
    (derive (.multiply (.int 3) (.int 4))).runOn (.whole 47 "evaluation" 0) =
      (.error (.budgetExceeded (.int 47) (.int 48) "evaluation"),
        .whole 47 "evaluation" 48) ∧
    answer (.multiply (.int 1000) (.int 2)) = .ok (.int 2000) ∧
    answer (.multiply (.int 2) (.int 1000)) =
      .error (.budgetExceeded (.int 1000000) (.int 1000001) "evaluation") := by
  obtain ⟨hpaid, -⟩ := multiplication_exact 3 4 48 "evaluation" 48
  obtain ⟨hshort, -⟩ := multiplication_exact 3 4 47 "evaluation" 47
  obtain ⟨-, hcheap, hfound, -⟩ := multiplication_exact 1000 2 0 "" 0
  obtain ⟨-, hdear, hmissed, -⟩ := multiplication_exact 2 1000 0 "" 0
  exact ⟨by decide, by decide, hpaid, hshort,
    hcheap.trans (hfound {} (by decide) (by decide)).2,
    hdear.trans (hmissed {} (by decide) (by decide)).2⟩

/-! ### Division on every tank -/

/-- **Division, exactly.** Let `q` and `r` be the quotient and the remainder of `a` by a divisor
that is not zero. On a tank that can pay `cost`, the query for the quotient is answered by `q`,
and the query whether the divisor goes into `a` by whether `r` is zero; both spend exactly the
cost, but the second one nothing where `a` is zero. Any other tank is left one unit past its
limit, and the answer is that. On a tank without a limit both are answered. Neither loop needs a
bound: whatever bound above `a` is set on its rounds, it is the same derivation. -/
theorem division_exact (a : ℕ) {b : ℕ} (hb : 0 < b) (limit : ℤ) (what : String)
    (remaining : ℕ) :
    let q := a / b
    let r := a % b
    let cost := if 0 < a ∧ r = 0 then q + b * (q - 1) * (q + 4)
      else (q + 1) + b * (q * q + 3 * q + 1) + r * (2 * q + 1)
    let costOfTest := if a = 0 then 0 else cost
    let tank := Tank.whole limit what (limit - remaining)
    let overdrawn : Except Fault Datum × Tank :=
      (.error (.budgetExceeded (.int limit) (.int (limit + 1)) what),
        .whole limit what (limit + 1))
    ((derive (.divide (.int a) (.int b))).runOn tank =
      if cost ≤ remaining then
        (.ok (.int q), .whole limit what (limit - remaining + cost))
      else overdrawn) ∧
    ((derive (.divides (.int b) (.int a))).runOn tank =
      if costOfTest ≤ remaining then
        (.ok (.bool (decide (r = 0))), .whole limit what (limit - remaining + costOfTest))
      else overdrawn) ∧
    (∀ spent : ℤ,
      (derive (.divide (.int a) (.int b))).runOn (.unbounded what spent) =
        (.ok (.int q), .unbounded what (spent + cost)) ∧
      (derive (.divides (.int b) (.int a))).runOn (.unbounded what spent) =
        (.ok (.bool (decide (r = 0))), .unbounded what (spent + costOfTest))) ∧
    ∀ rounds, a < rounds →
      Unary.countParts b rounds a 0 = Unary.divide a b ∧
      (0 < a → Unary.comesOut b rounds a = Unary.divides b a) := by
  intro q r cost costOfTest tank overdrawn
  have hdivide : Draws (derive (.divide (.int a) (.int b))) cost (.ok (.int q)) :=
    (draws_onNaturals "divide" (Unary.draws_divide a hb)).map ofNat
  have hdivides : Draws (derive (.divides (.int b) (.int a))) costOfTest
      (.ok (.bool (decide (r = 0)))) := by
    have hiff : b ∣ a ↔ r = 0 := Nat.dvd_iff_mod_eq_zero
    have htest := (draws_onNaturals "divides" (Unary.draws_divides hb a)).map Datum.bool
    simp only [hiff] at htest
    exact htest
  refine ⟨hdivide.costs.runOn_remaining limit what remaining,
    hdivides.costs.runOn_remaining limit what remaining,
    fun spent => ⟨hdivide.runOn_unbounded what spent, hdivides.runOn_unbounded what spent⟩,
    fun rounds hrounds => ⟨?_, fun ha => ?_⟩⟩
  · have hcount := Unary.draws_countParts hb rounds a 0 hrounds
    rw [Nat.zero_add] at hcount
    exact hcount.trans (Unary.draws_divide a hb).symm
  · have hcomes := Unary.draws_comesOut hb rounds a ha hrounds
    have hunits : Unary.divisibilityCost b a = Unary.divisionCost a b := by
      rw [Unary.divisibilityCost, if_neg (by omega)]
    rw [← hunits] at hcomes
    exact hcomes.trans (Unary.draws_divides hb a).symm

/-- Twelve by four is an exact multiple, which costs fifty-nine units: a tank with so many left
pays for the quotient, and one with a unit less for neither answer. -/
theorem division_exact_twelve_four :
    0 < 4 ∧ 12 < 20 ∧ 0 < 12 ∧
    (derive (.divide (.int 12) (.int 4))).runOn (.whole 59 "evaluation" 0) =
      (.ok (.int 3), .whole 59 "evaluation" 59) ∧
    (derive (.divides (.int 4) (.int 12))).runOn (.whole 58 "evaluation" 0) =
      (.error (.budgetExceeded (.int 58) (.int 59) "evaluation"),
        .whole 58 "evaluation" 59) ∧
    (derive (.divide (.int 12) (.int 4))).runOn (.unbounded "evaluation" 7) =
      (.ok (.int 3), .unbounded "evaluation" 66) ∧
    Unary.comesOut 4 20 12 = Unary.divides 4 12 := by
  obtain ⟨hpaid, -, hunbounded, hrounds⟩ :=
    division_exact 12 (b := 4) (by decide) 59 "evaluation" 59
  obtain ⟨-, hshort, -, -⟩ := division_exact 12 (b := 4) (by decide) 58 "evaluation" 58
  exact ⟨by decide, by decide, by decide, hpaid, hshort, (hunbounded 7).1,
    (hrounds 20 (by decide)).2 (by decide)⟩

end Query

end Metered
