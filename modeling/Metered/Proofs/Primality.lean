import Mathlib.Data.Nat.Prime.Basic
import Mathlib.Algebra.BigOperators.Intervals
import Metered.Proofs.UnaryCost
import Metered.Query

/-!
# The Cost of Primality

`isPrime` tells the numbers below four apart directly and excludes the even ones; for all
others it tries the divisors three, five, seven and so on. The trial ends with the first
of them that divides the number or whose square is above it (`lastTrial`), and every trial
pays for a square, a comparison, a division and the next divisor (`trialCost`).

The number itself is odd where the trials begin and divides itself, so the trials end
before the bound on their number is reached.

## Main results

* `prime_iff_lt_square`: an odd number is prime exactly when the trials end with a square
  above it;
* `costs_trialDivision`: the value and the cost of the trials from any divisor on;
* `isPrime_exact`: `isPrime` decides primality at the cost `primalityCost`, or overdraws
  the tank.
-/

open Metered.Derivation Metered.Unary

namespace Metered.Unary

/-! ### Trial divisors -/

/-- The trial divisor of a trial: the odd numbers from three on. -/
def trialDivisor (k : ℕ) : ℕ :=
  2 * k + 3

/-- The trials for `n` end with a divisor of `n` and with a square above `n`. -/
def EndsTrials (n d : ℕ) : Prop :=
  n < d * d ∨ d ∣ n

instance (n d : ℕ) : Decidable (EndsTrials n d) :=
  inferInstanceAs (Decidable (_ ∨ _))

/-- The trials come to an end, since the squares exceed every number. -/
theorem exists_endsTrials (n : ℕ) : ∃ k, EndsTrials n (trialDivisor k) := by
  have hlt : n < trialDivisor n := by
    rw [trialDivisor]
    omega
  exact ⟨n, Or.inl (hlt.trans_le (Nat.le_mul_self _))⟩

/-- The number of trials before the last one. -/
def lastTrial (n : ℕ) : ℕ :=
  Nat.find (exists_endsTrials n)

/-- The last trial ends the trials. -/
theorem endsTrials_lastTrial (n : ℕ) : EndsTrials n (trialDivisor (lastTrial n)) :=
  Nat.find_spec (exists_endsTrials n)

/-- The trials end at the latest with a trial that ends them. -/
theorem lastTrial_le {n k : ℕ} (h : EndsTrials n (trialDivisor k)) : lastTrial n ≤ k :=
  Nat.find_min' (exists_endsTrials n) h

/-- An odd number from three on is a trial divisor. -/
theorem exists_eq_trialDivisor {d : ℕ} (hd : 3 ≤ d) (hodd : ¬ 2 ∣ d) :
    ∃ k, d = trialDivisor k := by
  refine ⟨(d - 3) / 2, ?_⟩
  rw [trialDivisor]
  omega

/-- The squares exceed a number before as many trials are made as it says. -/
theorem lastTrial_lt {n : ℕ} (hn : 0 < n) : lastTrial n < n := by
  have hlt : n < trialDivisor (n - 1) := by
    rw [trialDivisor]
    omega
  have hle : lastTrial n ≤ n - 1 := lastTrial_le (Or.inl (hlt.trans_le (Nat.le_mul_self _)))
  omega

/-- **Trial division decides primality.** An odd number is prime exactly when its trials
end with a square above it, for its least divisor is itself a trial divisor. -/
theorem prime_iff_lt_square {n : ℕ} (hn : 4 ≤ n) (hodd : ¬ 2 ∣ n) :
    n.Prime ↔ n < trialDivisor (lastTrial n) * trialDivisor (lastTrial n) := by
  constructor
  · intro hprime
    obtain hlt | hdvd := endsTrials_lastTrial n
    · exact hlt
    · have hself : trialDivisor (lastTrial n) = n := by
        refine (hprime.eq_one_or_self_of_dvd _ hdvd).resolve_left ?_
        rw [trialDivisor]
        omega
      have hsquare : 4 * n ≤ n * n := Nat.mul_le_mul_right n hn
      rw [hself]
      omega
  · intro hlt
    by_contra hnot
    have hsq : n.minFac * n.minFac ≤ n := by
      have h := Nat.minFac_sq_le_self (by omega) hnot
      rwa [Nat.pow_two] at h
    have hfac : n.minFac.Prime := Nat.minFac_prime (by omega)
    have hfacodd : ¬ 2 ∣ n.minFac := fun h => hodd (h.trans n.minFac_dvd)
    have hthree : 3 ≤ n.minFac := by
      have := hfac.two_le
      have : n.minFac ≠ 2 := fun h => hfacodd (h ▸ dvd_rfl)
      omega
    obtain ⟨k, hk⟩ := exists_eq_trialDivisor hthree hfacodd
    have hle : lastTrial n ≤ k := lastTrial_le (Or.inr (hk ▸ n.minFac_dvd))
    have hmono : trialDivisor (lastTrial n) ≤ n.minFac := by
      rw [hk, trialDivisor, trialDivisor]
      omega
    have := Nat.mul_le_mul hmono hmono
    omega

/-! ### Costs -/

/-- **The cost of a trial** with the divisor `d`: a unit for the round, the square of `d`,
the comparison with it, the division unless the square is too large already, and the next
divisor unless the trials end here. -/
def trialCost (n d : ℕ) : ℕ :=
  1 + (d - 1) * (1 + d + d * d) + (n + d * d) +
    (if d * d ≤ n then divisibilityCost d n else 0) + (if EndsTrials n d then 0 else d + 4)

/-- **The cost of primality**: nothing for numbers below four; otherwise the test for even
numbers, and for odd ones all trials up to the last. -/
def primalityCost (n : ℕ) : ℕ :=
  if n < 4 then 0
  else divisibilityCost 2 n +
    if 2 ∣ n then 0 else ∑ k ∈ Finset.range (lastTrial n + 1), trialCost n (trialDivisor k)

/-- **One trial**: it yields `true` where the square of the divisor is above the number
and `false` where the divisor divides it, and goes on with the next odd number otherwise. -/
theorem costs_trial {n d m : ℕ} (hd : 0 < d) {next : ℕ → Derivation Bool} {value : Bool}
    (hends : EndsTrials n d → m = 0 ∧ value = decide (n < d * d))
    (hnext : ¬ EndsTrials n d → Costs (next (d + 2)) m (.ok value)) :
    Costs (do
      burn 1
      let square ← multiply d d
      if ← isLess n square then pure true
      else if ← divides d n then pure false
      else do
        let following ← add d 2
        next following) (trialCost n d + m) (.ok value) := by
  have hd' : d ≠ 0 := by omega
  have hsquare : productCost d d = (d - 1) * (1 + d + d * d) := by
    rw [productCost, if_neg (by omega)]
  by_cases hlt : n < d * d
  · have hend : EndsTrials n d := Or.inl hlt
    obtain ⟨rfl, rfl⟩ := hends hend
    refine Costs.cast (Costs.burn_bind
      (n := productCost d d + ((n + d * d) + 0)) ?_) ?_ rfl
    · refine (draws_multiply d d).costs.bind ((draws_isLess n (d * d)).costs.bind ?_)
      simp only [hlt, decide_true, if_true]
      exact costs_pure true
    · have hle : ¬ d * d ≤ n := by omega
      rw [trialCost, if_neg hle, if_pos hend, hsquare]
      omega
  · have hle : d * d ≤ n := by omega
    by_cases hdvd : d ∣ n
    · have hend : EndsTrials n d := Or.inr hdvd
      obtain ⟨rfl, rfl⟩ := hends hend
      refine Costs.cast (Costs.burn_bind
        (n := productCost d d + ((n + d * d) + (divisibilityCost d n + 0))) ?_) ?_ rfl
      · refine (draws_multiply d d).costs.bind ((draws_isLess n (d * d)).costs.bind ?_)
        simp only [hlt, decide_false, Bool.false_eq_true, if_false]
        refine (draws_divides hd n).costs.bind ?_
        simp only [hdvd, decide_true, if_true]
        exact costs_pure false
      · rw [trialCost, if_pos hle, if_pos hend, hsquare]
        omega
    · have hend : ¬ EndsTrials n d := not_or.mpr ⟨hlt, hdvd⟩
      refine Costs.cast (Costs.burn_bind
        (n := productCost d d + ((n + d * d) + (divisibilityCost d n + (d + 2 * 2 + m)))) ?_) ?_ rfl
      · refine (draws_multiply d d).costs.bind ((draws_isLess n (d * d)).costs.bind ?_)
        simp only [hlt, decide_false, Bool.false_eq_true, if_false]
        refine (draws_divides hd n).costs.bind ?_
        simp only [hdvd, decide_false, Bool.false_eq_true, if_false]
        exact (draws_add d 2).costs.bind (hnext hend)
      · rw [trialCost, if_pos hle, if_neg hend, hsquare]
        omega

/-- **A run of trials** from any trial up to the last: it yields whether the square of the
last divisor is above the number, and costs the sum of the trials. A bound on the rounds
does not show if it is above the number of trials that are left. -/
theorem costs_trialDivision (n rounds k : ℕ) (hk : k ≤ lastTrial n)
    (hrounds : lastTrial n < k + rounds) :
    Costs (trialDivision n rounds (trialDivisor k))
      (∑ i ∈ Finset.Ico k (lastTrial n + 1), trialCost n (trialDivisor i))
      (.ok (decide (n < trialDivisor (lastTrial n) * trialDivisor (lastTrial n)))) := by
  induction rounds generalizing k with
  | zero => omega
  | succ rounds ih =>
      have hpos : 0 < trialDivisor k := Nat.succ_pos _
      rw [trialDivision, Finset.sum_eq_sum_Ico_succ_bot (by omega)]
      refine costs_trial hpos ?_ ?_
      · intro hend
        obtain rfl : k = lastTrial n := le_antisymm hk (lastTrial_le hend)
        exact ⟨by rw [Finset.Ico_self, Finset.sum_empty], rfl⟩
      · intro hend
        have hne : k ≠ lastTrial n := by
          rintro rfl
          exact hend (endsTrials_lastTrial n)
        exact ih (k + 1) (by omega) (by omega)

/-- The trials for an odd number from four on decide primality, whatever bound above their
number is set on the rounds. -/
theorem costs_trials {n : ℕ} (hn : 4 ≤ n) (hodd : ¬ 2 ∣ n) (rounds : ℕ) (h : n ≤ rounds) :
    Costs (trialDivision n rounds 3)
      (∑ k ∈ Finset.range (lastTrial n + 1), trialCost n (trialDivisor k))
      (.ok (decide n.Prime)) := by
  have hlt : lastTrial n < n := lastTrial_lt (by omega)
  refine (costs_trialDivision n rounds 0 (Nat.zero_le _) (by omega)).cast ?_ ?_
  · rw [Finset.range_eq_Ico]
  · simp only [prime_iff_lt_square hn hodd]

/-- **Primality.** -/
theorem costs_isPrime (n : ℕ) : Costs (isPrime n) (primalityCost n) (.ok (decide n.Prime)) := by
  rw [isPrime, primalityCost]
  by_cases htwo : n < 2
  · have hnot : ¬ n.Prime := fun h => absurd h.two_le (by omega)
    rw [if_pos htwo, if_pos (by omega)]
    simp only [hnot, decide_false]
    exact costs_pure false
  · by_cases hfour : n < 4
    · have hprime : n.Prime := by
        obtain rfl | rfl : n = 2 ∨ n = 3 := by omega
        · exact Nat.prime_two
        · exact Nat.prime_three
      rw [if_neg htwo, if_pos hfour, if_pos hfour]
      simp only [hprime, decide_true]
      exact costs_pure true
    · rw [if_neg htwo, if_neg hfour, if_neg hfour]
      refine (draws_divides Nat.two_pos n).costs.bind ?_
      by_cases heven : 2 ∣ n
      · have hnot : ¬ n.Prime := fun h => by
          have := (Nat.prime_dvd_prime_iff_eq Nat.prime_two h).mp heven
          omega
        simp only [heven, hnot, decide_true, decide_false, if_true]
        exact costs_pure false
      · simp only [heven, decide_false, Bool.false_eq_true, if_false]
        exact costs_trials (by omega) heven n le_rfl

end Metered.Unary

namespace Metered.Query

/-- **Primality, exactly.** On a tank with enough units remaining the query whether a
natural number is prime is answered by primality, and exactly `primalityCost` is spent;
any other tank is left one unit past its limit, and the answer is that. The loop over the
trial divisors needs no bound: whatever bound from the number on is set on its rounds, it
does the same on every such tank. -/
theorem isPrime_exact (n : ℕ) (limit : ℤ) (what : String) (remaining : ℕ) :
    (derive (.isPrime (.int n))).runOn (.whole limit what (limit - remaining)) =
        (if primalityCost n ≤ remaining then
          (.ok (.bool (decide n.Prime)), .whole limit what (limit - remaining + primalityCost n))
        else
          (.error (.budgetExceeded (.int limit) (.int (limit + 1)) what),
            .whole limit what (limit + 1))) ∧
      ∀ rounds, 4 ≤ n → ¬ 2 ∣ n → n ≤ rounds →
        (trialDivision n rounds 3).runOn (.whole limit what (limit - remaining)) =
          (trialDivision n n 3).runOn (.whole limit what (limit - remaining)) := by
  constructor
  · exact ((costs_onNatural "is_prime" (costs_isPrime n)).map Datum.bool).runOn_remaining
      limit what remaining
  · intro rounds hn hodd hrounds
    rw [(costs_trials hn hodd rounds hrounds).runOn_remaining limit what remaining,
      (costs_trials hn hodd n le_rfl).runOn_remaining limit what remaining]

end Metered.Query
