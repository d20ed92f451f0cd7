import Mathlib.Data.Set.Defs
import Metered.Proofs.Line

/-!
# Light Cones

A cell depends on three cells of the generation before it and on nothing else. So what is changed
in a row spreads by one cell per generation on each side and no faster: a generation shows a change
only in the **light cone** of the places that were changed. Every generation begins one cell further
left than the one before, so the cone of the index `p` is the stretch from `p` to `p + 2 * i` of
generation `i`.

## Main results

* `agree_successorBits`: what one generation takes from the row before it;
* `agree_generation`: what a generation takes from the row at the start;
* `change_within_cone`: histories of two rows agree outside of the cone of their differences.
-/

namespace Metered

namespace Row

/-- Two rows agree on the stretch between two indices, both included. -/
def AgreeOn (x y : List Bool) (first last : ℤ) : Prop :=
  ∀ j, first ≤ j → j ≤ last → cell x j = cell y j

/-- Rows with the same item at an index have the same cell there. -/
theorem cell_congr {x y : List Bool} {j : ℕ} (h : x[j]? = y[j]?) : cell x j = cell y j := by
  rw [cell_natCast, cell_natCast, List.getD_eq_getElem?_getD, List.getD_eq_getElem?_getD, h]

/-- Rows that differ only at given indices agree on every stretch that has none of these. -/
theorem agreeOn_of_forall_notMem {x y : List Bool} {changed : Set ℕ}
    (hagree : ∀ p ∉ changed, x[p]? = y[p]?) {first last : ℤ}
    (hstretch : ∀ p ∈ changed, ¬ (first ≤ p ∧ (p : ℤ) ≤ last)) : AgreeOn x y first last := by
  intro j hfirst hlast
  cases j with
  | negSucc k => rfl
  | ofNat k => exact cell_congr (hagree k fun hk => hstretch k hk ⟨hfirst, hlast⟩)

end Row

namespace Rule

variable (rule : Rule)

/-- **One generation.** A stretch of the next generation takes two cells more on the left from the
row before it. -/
theorem agree_successorBits {x y : List Bool} {first last : ℤ}
    (h : Row.AgreeOn x y (first - 2) last) :
    Row.AgreeOn (rule.successorBits x) (rule.successorBits y) first last := by
  intro j hfirst hlast
  rw [cell_successorBits, cell_successorBits, h (j - 2) (by omega) (by omega),
    h (j - 1) (by omega) (by omega), h j (by omega) hlast]

/-- **Light cones.** A stretch of generation `i` takes `2 * i` cells more on the left from the row
at the start. -/
theorem agree_generation {x y : List Bool} {first last : ℤ} (i : ℕ)
    (h : Row.AgreeOn x y (first - 2 * i) last) :
    Row.AgreeOn (rule.generation x i) (rule.generation y i) first last := by
  induction i generalizing first with
  | zero =>
      rw [Nat.cast_zero, Int.mul_zero, Int.sub_zero] at h
      exact h
  | succ i ih =>
      rw [generation_succ, generation_succ]
      refine rule.agree_successorBits (ih ?_)
      have hfirst : first - 2 - 2 * (i : ℤ) = first - 2 * (i + 1 : ℕ) := by omega
      rw [hfirst]
      exact h

/-- Rows of one length have generations of one length. -/
theorem length_generation_congr {x y : List Bool} (h : x.length = y.length) (i : ℕ) :
    (rule.generation x i).length = (rule.generation y i).length := by
  have hnil : x = [] ↔ y = [] := by
    rw [← List.length_eq_zero_iff, ← List.length_eq_zero_iff, h]
  simp only [length_generation, hnil, h]

/-- **Changes stay within their light cone.** Let two rows of one length differ only at the indices
in `changed`. Their histories have rows of the same lengths, and the rows of generation `i` have the
same item at every index that is not between `p` and `p + 2 * i` for a changed index `p`. -/
theorem change_within_cone {x y : List Bool} {changed : Set ℕ}
    (hlength : x.length = y.length) (hagree : ∀ p ∉ changed, x[p]? = y[p]?) (n : ℕ) :
    ∃ xRows yRows : List (List Bool),
      rule.Records x n xRows ∧ rule.Records y n yRows ∧
      xRows.length = n ∧ yRows.length = n ∧
      ∀ (i : ℕ) (hx : i < xRows.length) (hy : i < yRows.length),
        xRows[i].length = yRows[i].length ∧
        ∀ j : ℕ, (∀ p ∈ changed, ¬ (p ≤ j ∧ j ≤ p + 2 * i)) → xRows[i][j]? = yRows[i][j]? := by
  refine ⟨rule.generations x n, rule.generations y n, rule.records_generations x n,
    rule.records_generations y n, rule.length_generations x n, rule.length_generations y n, ?_⟩
  intro i hx hy
  rw [getElem_generations, getElem_generations]
  have hlengths := rule.length_generation_congr hlength i
  refine ⟨hlengths, fun j hcone => ?_⟩
  have hstretch : Row.AgreeOn x y ((j : ℤ) - 2 * i) j := by
    refine Row.agreeOn_of_forall_notMem hagree ?_
    intro p hp hbetween
    exact hcone p hp (by omega)
  by_cases hj : j < (rule.generation x i).length
  · have hcell := rule.agree_generation i hstretch j le_rfl le_rfl
    rw [Row.getElem?_eq_cell _ hj, hcell, Row.getElem?_eq_cell _ (hlengths ▸ hj)]
  · rw [List.getElem?_eq_none (by omega), List.getElem?_eq_none (by omega)]

/-- Under rule 110 a change of the second of five cells shows in the second generation after it
neither in the first of its seven cells nor in the last. -/
theorem second_cell_within_cone :
    let x := [true, false, true, true, false]
    let y := [true, true, true, true, false]
    x.length = y.length ∧ (∀ p ∉ ({1} : Set ℕ), x[p]? = y[p]?) ∧
    ∃ xRows yRows : List (List Bool), rule110.Records x 3 xRows ∧ rule110.Records y 3 yRows ∧
      ∃ (hx : 2 < xRows.length) (hy : 2 < yRows.length),
        xRows[2][0]? = yRows[2][0]? ∧ xRows[2][6]? = yRows[2][6]? := by
  intro x y
  have hagree : ∀ p ∉ ({1} : Set ℕ), x[p]? = y[p]? := by
    intro p hp
    match p with
    | 0 => rfl
    | 1 => exact absurd rfl hp
    | p + 2 => rfl
  obtain ⟨xRows, yRows, hxRecords, hyRecords, hxLength, hyLength, hrows⟩ :=
    rule110.change_within_cone (x := x) (y := y) rfl hagree 3
  have hx : 2 < xRows.length := by omega
  have hy : 2 < yRows.length := by omega
  refine ⟨rfl, hagree, xRows, yRows, hxRecords, hyRecords, hx, hy, ?_, ?_⟩
  · refine (hrows 2 hx hy).2 0 ?_
    rintro p rfl
    omega
  · refine (hrows 2 hx hy).2 6 ?_
    rintro p rfl
    omega

end Rule

end Metered
