import Metered.Proofs.BitRow

/-!
# Sweeps over Integers

A sweep looks at three neighbours at a time and pays for each look before it takes it. Its cells
have not been checked and need not be bits. A cell that is no bit is found out by the first look
that it takes part in: the cell of index `k`, counted from the cell before the swept ones, by the
look of number `k - 2`, or the first one if it is one of the first three. So it depends on that
index whether a sweep ends with the flaw or runs short of its budget.

The cells that a sweep looks at are `prev :: cur :: rest` and a zero at the end; the neighbours of a
look are three of them, from the one with the number of the look on.

## Main results

* `apply_int_of_isBit`, `apply_int_of_not_isBit`: one look, at three bits and at any others;
* `costs_sweep_of_isBit`: a sweep over bits, with the neighbours of each cell;
* `costs_sweep_of_isFirstFlaw`: a sweep over a flaw, with the neighbours that it ends at;
* `sweep_exact`: sweeps over all integers on every tank.
-/

open Metered.Derivation

namespace Metered

/-! ### Flaws in a row of integers -/

namespace Row

/-- An integer that is a bit. -/
def IsBit (n : ℤ) : Prop :=
  n = 0 ∨ n = 1

/-- **The first flaw** of a row of integers: the least index at which there is no bit. -/
structure IsFirstFlaw (cells : List ℤ) (k : ℕ) : Prop where
  not_isBit : ∃ n, cells[k]? = some n ∧ ¬ IsBit n
  isBit_before : ∀ j < k, ∀ n, cells[j]? = some n → IsBit n

variable {cells : List ℤ} {n : ℤ} {k : ℕ}

/-- The first flaw is at the beginning if there is one there. -/
theorem isFirstFlaw_zero : IsFirstFlaw (n :: cells) 0 ↔ ¬ IsBit n := by
  constructor
  · rintro ⟨⟨m, hm, hflaw⟩, -⟩
    obtain rfl : n = m := Option.some.inj hm
    exact hflaw
  · intro hflaw
    exact ⟨⟨n, rfl, hflaw⟩, fun j hj => absurd hj (Nat.not_lt_zero j)⟩

/-- The first flaw is further on if there is a bit at the beginning. -/
theorem isFirstFlaw_succ : IsFirstFlaw (n :: cells) (k + 1) ↔ IsBit n ∧ IsFirstFlaw cells k := by
  constructor
  · rintro ⟨hflaw, hbefore⟩
    exact ⟨hbefore 0 (Nat.succ_pos k) n rfl,
      hflaw, fun j hj => hbefore (j + 1) (Nat.succ_lt_succ hj)⟩
  · rintro ⟨hbit, hflaw, hbefore⟩
    refine ⟨hflaw, fun j hj m hm => ?_⟩
    cases j with
    | zero =>
        obtain rfl : n = m := Option.some.inj hm
        exact hbit
    | succ j => exact hbefore j (Nat.lt_of_succ_lt_succ hj) m hm

/-- There is no flaw in an empty row. -/
theorem not_isFirstFlaw_nil : ¬ IsFirstFlaw [] k := by
  rintro ⟨⟨n, hn, -⟩, -⟩
  cases hn

/-- A row without a flaw is one of bits. -/
theorem forall_isBit_or_exists_isFirstFlaw (cells : List ℤ) :
    (∀ n ∈ cells, IsBit n) ∨ ∃ k, IsFirstFlaw cells k := by
  induction cells with
  | nil => exact .inl (List.forall_mem_nil _)
  | cons n cells ih =>
      by_cases hn : IsBit n
      · obtain hcells | ⟨k, hk⟩ := ih
        · exact .inl (List.forall_mem_cons.mpr ⟨hn, hcells⟩)
        · exact .inr ⟨k + 1, isFirstFlaw_succ.mpr ⟨hn, hk⟩⟩
      · exact .inr ⟨0, isFirstFlaw_zero.mpr hn⟩

/-- The first flaw is one of the first three cells, or these are bits and it comes after them. -/
theorem IsFirstFlaw.cases_three {p c : ℤ} (h : IsFirstFlaw (p :: c :: n :: cells) k) :
    (k ≤ 2 ∧ ¬ (IsBit p ∧ IsBit c ∧ IsBit n)) ∨
      ∃ j, k = j + 3 ∧ (IsBit p ∧ IsBit c ∧ IsBit n) ∧ IsFirstFlaw cells j := by
  match k, h with
  | 0, h => exact .inl ⟨Nat.zero_le 2, fun hbits => isFirstFlaw_zero.mp h hbits.1⟩
  | 1, h =>
      obtain ⟨-, hc⟩ := isFirstFlaw_succ.mp h
      exact .inl ⟨by decide, fun hbits => isFirstFlaw_zero.mp hc hbits.2.1⟩
  | 2, h =>
      obtain ⟨-, hc⟩ := isFirstFlaw_succ.mp h
      obtain ⟨-, hn⟩ := isFirstFlaw_succ.mp hc
      exact .inl ⟨Nat.le_refl 2, fun hbits => isFirstFlaw_zero.mp hn hbits.2.2⟩
  | j + 3, h =>
      obtain ⟨hp, h⟩ := isFirstFlaw_succ.mp h
      obtain ⟨hc, h⟩ := isFirstFlaw_succ.mp h
      obtain ⟨hn, h⟩ := isFirstFlaw_succ.mp h
      exact .inr ⟨j, rfl, ⟨hp, hc, hn⟩, h⟩

/-- An integer that is a bit, as a datum. -/
theorem IsBit.int_eq (h : IsBit n) : Datum.int n = .ofBit (n = 1) := by
  obtain rfl | rfl := h <;> rfl

/-- An integer that equals a bit is one. -/
theorem isBit_of_bit? {bit : Bool} (h : (Datum.int n).bit? = some bit) : IsBit n := by
  rw [Datum.bit?] at h
  split at h
  · rename_i hzero
    exact .inl (Option.some.inj hzero)
  · rename_i hone
    exact .inr (Option.some.inj hone)
  · cases h

end Row

namespace Rule

open Row

variable (rule : Rule)

/-! ### One look -/

/-- Three integers that are bits are looked up. -/
theorem apply_int_of_isBit {p c n : ℤ} (h : IsBit p ∧ IsBit c ∧ IsBit n) :
    rule.apply (.int p) (.int c) (.int n) = .ok (.ofBit (rule.output (p = 1) (c = 1) (n = 1))) := by
  obtain ⟨hp, hc, hn⟩ := h
  rw [hp.int_eq, hc.int_eq, hn.int_eq, apply_ofBit]

/-- Three integers that are not all bits are refused, all three being named. -/
theorem apply_int_of_not_isBit {p c n : ℤ} (h : ¬ (IsBit p ∧ IsBit c ∧ IsBit n)) :
    rule.apply (.int p) (.int c) (.int n) =
      .error (.notNeighbourhood (.int p) (.int c) (.int n)) := by
  have hkey : (Datum.tuple [.int p, .int c, .int n]).unhashable? = none := rfl
  rw [apply, hkey]
  dsimp only
  split
  · rename_i hp hc hn
    exact absurd ⟨isBit_of_bit? hp, isBit_of_bit? hc, isBit_of_bit? hn⟩ h
  · rfl

/-! ### Whole sweeps -/

/-- **A sweep over bits** costs one unit for each cell, and each cell is what its three neighbours
make of it. -/
theorem costs_sweep_of_isBit {prev cur : ℤ} {rest : List ℤ}
    (h : ∀ n ∈ prev :: cur :: rest ++ [0], IsBit n) :
    ∃ cells : List Bool,
      Costs (rule.sweep (.int prev) (.int cur) (rest.map .int)) (rest.length + 1)
        (.ok (Row.ofBits cells)) ∧
      cells.length = rest.length + 1 ∧
      ∀ i < rest.length + 1, cells[i]? = some (rule.output
        ((prev :: cur :: rest ++ [0]).getD i 0 = 1) ((cur :: rest ++ [0]).getD i 0 = 1)
        ((rest ++ [0]).getD i 0 = 1)) := by
  induction rest generalizing prev cur with
  | nil =>
      obtain ⟨hprev, hcur⟩ := List.forall_mem_cons.mp h
      obtain ⟨hcur, hzero⟩ := List.forall_mem_cons.mp hcur
      have hlook := rule.apply_int_of_isBit ⟨hprev, hcur, hzero 0 (List.mem_singleton_self 0)⟩
      refine ⟨[_], Costs.burn_bind (Costs.check_bind hlook (costs_pure _)), rfl, fun i hi => ?_⟩
      obtain rfl : i = 0 := Nat.lt_one_iff.mp hi
      rfl
  | cons next rest ih =>
      obtain ⟨hprev, htail⟩ := List.forall_mem_cons.mp h
      obtain ⟨hcur, hrest⟩ := List.forall_mem_cons.mp htail
      obtain ⟨hnext, -⟩ := List.forall_mem_cons.mp hrest
      have hlook := rule.apply_int_of_isBit ⟨hprev, hcur, hnext⟩
      obtain ⟨cells, hcosts, hlength, hcells⟩ := ih htail
      refine ⟨_ :: cells,
        Costs.burn_bind (Costs.check_bind hlook (Costs.bind (n := 0) hcosts (costs_pure _))),
        congrArg Nat.succ hlength, fun i hi => ?_⟩
      cases i with
      | zero => rfl
      | succ i => exact hcells i (Nat.lt_of_succ_lt_succ hi)

/-- **A sweep over a flaw** ends at the first three neighbours that the flaw is one of. -/
theorem costs_sweep_of_isFirstFlaw {prev cur : ℤ} {rest : List ℤ} {k : ℕ}
    (h : IsFirstFlaw (prev :: cur :: rest ++ [0]) k) :
    Costs (rule.sweep (.int prev) (.int cur) (rest.map .int)) (k - 2 + 1)
      (.error (.notNeighbourhood (.int ((prev :: cur :: rest ++ [0]).getD (k - 2) 0))
        (.int ((cur :: rest ++ [0]).getD (k - 2) 0)) (.int ((rest ++ [0]).getD (k - 2) 0)))) := by
  induction rest generalizing prev cur k with
  | nil =>
      obtain ⟨hk, hnot⟩ | ⟨j, -, -, hnil⟩ := h.cases_three
      · have hlook := rule.apply_int_of_not_isBit hnot
        rw [Nat.sub_eq_zero_of_le hk]
        exact Costs.burn_bind (Costs.check_bind_error hlook _)
      · exact absurd hnil not_isFirstFlaw_nil
  | cons next rest ih =>
      obtain ⟨hk, hnot⟩ | ⟨j, rfl, hbits, hflaw⟩ := h.cases_three
      · have hlook := rule.apply_int_of_not_isBit hnot
        rw [Nat.sub_eq_zero_of_le hk]
        exact Costs.burn_bind (Costs.check_bind_error hlook _)
      · have hlook := rule.apply_int_of_isBit hbits
        have hrest : IsFirstFlaw (cur :: next :: rest ++ [0]) (j + 2) :=
          isFirstFlaw_succ.mpr ⟨hbits.2.1, isFirstFlaw_succ.mpr ⟨hbits.2.2, hflaw⟩⟩
        exact Costs.burn_bind (Costs.check_bind hlook ((ih hrest).bind_error _))

/-- The words on three integers that are not all bits. -/
theorem report_notNeighbourhood_int (p c n : ℤ) :
    (Fault.notNeighbourhood (.int p) (.int c) (.int n)).report =
      .ofMessage .wrongValue ("Neighbourhood cells must be bits, got (" ++ toString p ++ ", " ++
        toString c ++ ", " ++ toString n ++ ")") := by
  have hwritten : (Datum.tuple [.int p, .int c, .int n]).written =
      "(" ++ (toString p ++ ", " ++ toString c ++ ", " ++ toString n) ++ ")" := rfl
  have hopening : "Neighbourhood cells must be bits, got (" =
      "Neighbourhood cells must be bits, got " ++ "(" := rfl
  rw [Fault.report, hwritten, hopening]
  simp only [String.append_assoc]

/-- **Sweeps over integers, exactly.** Let `s` be the cells that a sweep looks at. If they are all
bits and the tank can pay for every look, the sweep has a cell for each look, which is what the
rule makes of the three neighbours, and exactly one unit is spent for each. If the first flaw of `s`
is at index `k` and the tank can pay for the first look that it takes part in, the sweep ends with a
fault of value that names the three neighbours of that look, and what is spent is the price of the
looks up to this one. In all other cases the tank is left one unit past its limit, and the answer is
that. -/
theorem sweep_exact (prev cur : ℤ) (rest : List ℤ) (limit : ℤ) (what : String) (remaining : ℕ) :
    let s := prev :: cur :: rest ++ [0]
    let query := Query.sweep rule (.int prev) (.int cur) (.tuple (rest.map .int))
    let answer := query.derive.runOn (.whole limit what (limit - remaining))
    let isDone := (∀ n ∈ s, IsBit n) ∧ rest.length + 1 ≤ remaining
    let isStoppedAt (k : ℕ) := IsFirstFlaw s k ∧ (k - 2) + 1 ≤ remaining
    (isDone → ∃ cells : List Bool,
      answer = (.ok (.tuple (Row.ofBits cells)),
        .whole limit what (limit - remaining + (rest.length + 1 : ℕ))) ∧
      cells.length = rest.length + 1 ∧
      ∀ i < rest.length + 1, cells[i]? = some
        (rule.output (s.getD i 0 = 1) (s.getD (i + 1) 0 = 1) (s.getD (i + 2) 0 = 1))) ∧
    (∀ k, isStoppedAt k →
      let i := k - 2
      let p := s.getD i 0
      let c := s.getD (i + 1) 0
      let n := s.getD (i + 2) 0
      let fault := Fault.notNeighbourhood (.int p) (.int c) (.int n)
      answer = (.error fault, .whole limit what (limit - remaining + (i + 1 : ℕ))) ∧
      fault.report.kind = .wrongValue ∧
      fault.message = "Neighbourhood cells must be bits, got (" ++ toString p ++ ", " ++
        toString c ++ ", " ++ toString n ++ ")") ∧
    (¬ isDone → (∀ k, ¬ isStoppedAt k) →
      answer = (.error (.budgetExceeded (.int limit) (.int (limit + 1)) what),
        .whole limit what (limit + 1))) := by
  intro s query answer isDone isStoppedAt
  have hdone : (∀ n ∈ s, IsBit n) → ∃ cells : List Bool,
      Costs query.derive (rest.length + 1) (.ok (.tuple (Row.ofBits cells))) ∧
      cells.length = rest.length + 1 ∧
      ∀ i < rest.length + 1, cells[i]? = some
        (rule.output (s.getD i 0 = 1) (s.getD (i + 1) 0 = 1) (s.getD (i + 2) 0 = 1)) := by
    intro hbits
    obtain ⟨cells, hcosts, hcells⟩ := rule.costs_sweep_of_isBit hbits
    exact ⟨cells, hcosts.map Datum.tuple, hcells⟩
  have hstopped (k : ℕ) (hflaw : IsFirstFlaw s k) :
      Costs query.derive (k - 2 + 1) (.error (.notNeighbourhood (.int (s.getD (k - 2) 0))
        (.int (s.getD (k - 2 + 1) 0)) (.int (s.getD (k - 2 + 2) 0)))) :=
    (rule.costs_sweep_of_isFirstFlaw hflaw).map Datum.tuple
  refine ⟨?_, ?_, ?_⟩
  · rintro ⟨hbits, hpaid⟩
    obtain ⟨cells, hcosts, hcells⟩ := hdone hbits
    refine ⟨cells, ?_, hcells⟩
    exact (hcosts.runOn_remaining limit what remaining).trans (if_pos hpaid)
  · rintro k ⟨hflaw, hpaid⟩ i p c n fault
    have hreport := report_notNeighbourhood_int p c n
    refine ⟨?_, congrArg Report.kind hreport, congrArg Report.message hreport⟩
    exact ((hstopped k hflaw).runOn_remaining limit what remaining).trans (if_pos hpaid)
  · intro hnotDone hnotStopped
    obtain hbits | ⟨k, hflaw⟩ := forall_isBit_or_exists_isFirstFlaw s
    · obtain ⟨cells, hcosts, -⟩ := hdone hbits
      have hshort : ¬ rest.length + 1 ≤ remaining := fun hpaid => hnotDone ⟨hbits, hpaid⟩
      exact (hcosts.runOn_remaining limit what remaining).trans (if_neg hshort)
    · have hshort : ¬ k - 2 + 1 ≤ remaining := fun hpaid => hnotStopped k ⟨hflaw, hpaid⟩
      exact ((hstopped k hflaw).runOn_remaining limit what remaining).trans (if_neg hshort)

/-- Two units pay for a sweep over two live cells, and for the look at a seven that follows on
them, but one unit does not pay for the two cells. -/
theorem sweep_exact_live_seven :
    let sweep (rest : List Datum) (remaining : ℕ) :=
      (Query.sweep rule110 (.int 0) (.int 1) (.tuple rest)).derive.runOn
        (.whole 9 "evaluation" (9 - remaining))
    (∀ n ∈ [0, 1, 1, 0], IsBit n) ∧
    (∃ cells : List Bool,
      sweep [.int 1] 2 = (.ok (.tuple (Row.ofBits cells)), .whole 9 "evaluation" 9) ∧
      cells.length = 2 ∧ cells[0]? = some true ∧ cells[1]? = some true) ∧
    IsFirstFlaw [0, 1, 1, 7, 1, 0] 3 ∧
    sweep [.int 1, .int 7, .int 1] 2 =
      (.error (.notNeighbourhood (.int 1) (.int 1) (.int 7)), .whole 9 "evaluation" 9) ∧
    sweep [.int 1] 1 =
      (.error (.budgetExceeded (.int 9) (.int 10) "evaluation"), .whole 9 "evaluation" 10) := by
  intro sweep
  have hbits : ∀ n ∈ [0, 1, 1, 0], IsBit n := by simp [IsBit]
  have hflaw : IsFirstFlaw [0, 1, 1, 7, 1, 0] 3 := by
    simp [isFirstFlaw_succ, isFirstFlaw_zero, IsBit]
  have hnone (k : ℕ) : ¬ (IsFirstFlaw [0, 1, 1, 0] k ∧ k - 2 + 1 ≤ 1) := by
    rintro ⟨⟨⟨n, hn, hnot⟩, -⟩, -⟩
    exact hnot (hbits n (List.mem_of_getElem? hn))
  obtain ⟨hdone, -, -⟩ := rule110.sweep_exact 0 1 [1] 9 "evaluation" 2
  obtain ⟨-, hstopped, -⟩ := rule110.sweep_exact 0 1 [1, 7, 1] 9 "evaluation" 2
  obtain ⟨-, -, hshort⟩ := rule110.sweep_exact 0 1 [1] 9 "evaluation" 1
  obtain ⟨cells, hanswer, hlength, hcells⟩ := hdone ⟨hbits, by decide⟩
  exact ⟨hbits, ⟨cells, hanswer, hlength, hcells 0 (by decide), hcells 1 (by decide)⟩, hflaw,
    (hstopped 3 ⟨hflaw, by decide⟩).1, hshort (fun h => absurd h.2 (by decide)) hnone⟩

end Rule

end Metered
