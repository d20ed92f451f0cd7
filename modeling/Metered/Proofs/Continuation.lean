import Mathlib.Algebra.BigOperators.Intervals
import Mathlib.Algebra.BigOperators.Ring.Finset
import Metered.Proofs.Line

/-!
# Histories Continued

A history can be cut at any generation and continued from there: what follows on a row depends on
that row alone. The generation after the last one that a history records is computed and paid for
all the same, so it is also the row that a continuation begins with, and the units of both parts
add up to those of the whole.

Each generation costs one unit and one more for each of its cells, and a row that is not empty grows
by the same number of cells every time. So the cost of a history is quadratic in the number of its
generations (`historyCost_eq`).

## Main results

* `generations_add`: a history is any beginning of it and the history of the row after that;
* `historyCost_add`, `historyCost_eq`: the units of the parts add up, and their sum in closed form;
* `history_continues`: the same of the queries for histories, on every tank.
-/

open Metered.Derivation

namespace Metered.Rule

variable (rule : Rule) (start : List Bool)

/-! ### Rows -/

/-- The generations of a generation are later generations of the row at the start. -/
theorem generation_add (a i : ℕ) :
    rule.generation start (a + i) = rule.generation (rule.generation start a) i := by
  rw [Nat.add_comm]
  exact Function.iterate_add_apply rule.successorBits i a start

/-- **Histories are continued** from the generation after the last one that they record. -/
theorem generations_add (a b : ℕ) :
    rule.generations start (a + b) =
      rule.generations start a ++ rule.generations (rule.generation start a) b := by
  rw [generations, List.range_add, List.map_append, List.map_map]
  have hrest : rule.generation start ∘ (a + ·) = rule.generation (rule.generation start a) :=
    funext fun i => rule.generation_add start a i
  rw [hrest]
  rfl

/-- The last row of a history with one generation more is where its continuation begins. -/
theorem getLast?_generations_succ (a : ℕ) :
    (rule.generations start (a + 1)).getLast? = some (rule.generation start a) := by
  rw [generations, List.range_succ, List.map_append]
  exact List.getLast?_concat

/-! ### Costs -/

/-- The units of a history and of its continuation add up. -/
theorem historyCost_add (a b : ℕ) :
    rule.historyCost start (a + b) =
      rule.historyCost start a + rule.historyCost (rule.generation start a) b := by
  simp only [historyCost, Finset.sum_range_add, generation_add]

/-- **The cost of a history in closed form.** -/
theorem historyCost_eq (n : ℕ) :
    rule.historyCost start n =
      if start = [] then n else n + n * start.length + rule.growth * n * (n - 1) / 2 := by
  simp only [historyCost, length_generation]
  split_ifs with hstart
  · simp
  · have htriangle : rule.growth * n * (n - 1) / 2 = (∑ i ∈ Finset.range n, i) * rule.growth := by
      rw [Nat.mul_assoc, ← Finset.sum_range_id_mul_two, ← Nat.mul_assoc,
        Nat.mul_div_cancel _ Nat.two_pos, Nat.mul_comm]
    rw [htriangle, Finset.sum_mul, Finset.sum_add_distrib, Finset.sum_add_distrib]
    simp [Nat.add_assoc]

/-! ### Queries -/

/-- **Histories compose.** A query for `n` generations of a row is answered by a history on every
tank that can pay its cost, which is then spent exactly; any other tank is left one unit past its
limit, and the answer is that. The history of `a + b` generations is that of `a` generations,
followed by that of `b` generations of the last row of the history of `a + 1`; so every shorter
history is the beginning of every longer one. The cost of the whole is that of both parts. -/
theorem history_continues (a b : ℕ) :
    let query (row : List Bool) (n : ℕ) : Derivation Datum :=
      (Query.history rule (.tuple (Row.ofBits row)) (.int n)).derive
    let growth := if rule.output true false false then 2 else 1
    let cost (row : List Bool) (n : ℕ) : ℕ :=
      if row = [] then n else n + n * row.length + growth * n * (n - 1) / 2
    ∃ history : List Bool → ℕ → List (List Bool),
      (∀ (row : List Bool) (n : ℕ) (limit : ℤ) (what : String) (remaining : ℕ),
        (query row n).runOn (.whole limit what (limit - remaining)) =
          if cost row n ≤ remaining then
            (.ok (.tuple ((history row n).map fun cells => .tuple (Row.ofBits cells))),
              .whole limit what (limit - remaining + cost row n))
          else
            (.error (.budgetExceeded (.int limit) (.int (limit + 1)) what),
              .whole limit what (limit + 1))) ∧
      (∀ m n, history start m <+: history start (m + n)) ∧
      ∃ last, (history start (a + 1)).getLast? = some last ∧
        history start (a + b) = history start a ++ history last b ∧
        cost start (a + b) = cost start a + cost last b := by
  intro query growth cost
  have hcost (row : List Bool) (n : ℕ) : rule.historyCost row n = cost row n :=
    rule.historyCost_eq row n
  refine ⟨rule.generations, fun row n limit what remaining => ?_, fun m n => ?_,
    rule.generation start a, rule.getLast?_generations_succ start a,
    rule.generations_add start a b, ?_⟩
  · have hrun := rule.costs_derive_history row n
    rw [hcost, List.map_map] at hrun
    exact hrun.runOn_remaining limit what remaining
  · rw [generations_add]
    exact List.prefix_append _ _
  · rw [← hcost, ← hcost, ← hcost]
    exact rule.historyCost_add start a b

end Metered.Rule
