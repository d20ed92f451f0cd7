import Mathlib.Tactic.NormNum.Basic
import Metered.Proofs.Price

/-!
# Sessions as Ledgers

What a tank decides about a query is only whether its price can be paid. So a session of
queries on one tank is a **ledger**: the tank is nothing but the amount spent so far, each
query that can be paid yields its outcome and adds its cost, and every other one runs short
by a single unit. An explicit draw adds its amount at once.

## Main results

* `Charges.runOn_settle`: a call on a tank settles its price;
* `ledger_mono`: under a larger limit an answer changes only if it was running short;
* `session_eq_ledger`: a session on a fresh tank of any limit is its ledger.
-/

open Metered.Derivation

namespace Metered.Query

/-! ### Ledgers -/

/-- Running short on a tank of a limit, with so much spent. -/
def short (limit : ℕ) (what : String) (spent : ℕ) : Except Fault Datum :=
  .error (.budgetExceeded (.int limit) (.int spent) what)

/-- **Settling a price** on a tank with so much spent: the answer, and what is spent then.
While the tank is not overdrawn, a price within what remains is paid, and any other one
leaves the tank one unit past its limit; after that only a price of nothing is paid, and
every other one draws one unit more. -/
def settle (limit : ℕ) (what : String) (spent : ℕ) (price : Price Datum) :
    Except Fault Datum × ℕ :=
  if spent ≤ limit then
    if price.cost ≤ (limit - spent : ℕ) then (price.outcome, spent + price.cost.toNat)
    else (short limit what (limit + 1), limit + 1)
  else if price.cost = 0 then (price.outcome, spent)
  else (short limit what (spent + 1), spent + 1)

/-- An explicit draw: the whole amount is spent at once, and the tank runs short if that is
past its limit. -/
def draw (limit : ℕ) (what : String) (spent amount : ℕ) : Except Fault Datum × ℕ :=
  (if spent + amount ≤ limit then .ok .null else short limit what (spent + amount),
    spent + amount)

/-- The answer to a query on a tank with so much spent, and what is spent then. -/
def entry (price : Query → Price Datum) (limit : ℕ) (what : String) (spent : ℕ) :
    Query → Except Fault Datum × ℕ
  | burn (.int amount) => draw limit what spent amount.toNat
  | query => settle limit what spent (price query)

/-- **The ledger of a session**: the answers to several queries, each with the tank after
it, from nothing but their prices and what is spent so far. -/
def ledger (price : Query → Price Datum) (limit : ℕ) (what : String) :
    ℕ → List Query → List (Except Fault Datum × Tank)
  | _, [] => []
  | spent, query :: rest =>
      let answer := entry price limit what spent query
      (answer.1, .whole limit what answer.2) :: ledger price limit what answer.2 rest

/-- A query is plain if it is a call, or an explicit draw of a natural amount. -/
def IsPlain : Query → Prop
  | burn amount => ∃ n : ℕ, amount = .int n
  | _ => True

/-- Settling a finite cost, with what remains counted as nothing on an overdrawn tank. -/
theorem settle_of_natCast {price : Price Datum} {n : ℕ} (h : price.cost = n) (limit : ℕ)
    (what : String) (spent : ℕ) :
    settle limit what spent price =
      if n ≤ limit - spent then (price.outcome, spent + n)
      else (short limit what (max limit spent + 1), max limit spent + 1) := by
  rw [settle, h]
  by_cases hspent : spent ≤ limit
  · rw [if_pos hspent, max_eq_left hspent, ENat.toNat_natCast]
    simp only [Nat.cast_le]
  · have hremaining : limit - spent = 0 := by omega
    rw [if_neg hspent, max_eq_right (by omega), hremaining]
    by_cases hn : n = 0
    · subst hn
      simp
    · simp [hn]

/-- An infinite cost cannot be settled. -/
theorem settle_of_top {price : Price Datum} (h : price.cost = ⊤) (limit : ℕ) (what : String)
    (spent : ℕ) :
    settle limit what spent price =
      (short limit what (max limit spent + 1), max limit spent + 1) := by
  rw [settle, h]
  by_cases hspent : spent ≤ limit
  · have hnot : ¬ (⊤ : ℕ∞) ≤ (limit - spent : ℕ) := by simp
    rw [if_pos hspent, if_neg hnot, max_eq_left hspent]
  · rw [if_neg hspent, if_neg ENat.top_ne_zero, max_eq_right (by omega)]

/-! ### Sessions -/

/-- Running short on a whole tank of natural amounts. -/
theorem overdraw_natCast (limit : ℕ) (what : String) (spent : ℕ) :
    overdraw limit what spent =
      (short limit what (max limit spent + 1), .whole limit what (max limit spent + 1 : ℕ)) := by
  have hmax : max (limit : ℤ) spent + 1 = (max limit spent + 1 : ℕ) := by omega
  rw [overdraw, short, hmax]

/-- **A call on a tank settles its price.** -/
theorem runOn_settle {derivation : Derivation Datum} {price : Price Datum}
    (h : Charges derivation price) (limit : ℕ) (what : String) (spent : ℕ) :
    derivation.runOn (.whole limit what spent) =
      ((settle limit what spent price).1, .whole limit what (settle limit what spent price).2) := by
  by_cases htop : price.cost = ⊤
  · rw [h.infinite htop, settle_of_top htop, overdraw_natCast]
  · obtain ⟨n, hn⟩ := ENat.ne_top_iff_exists.mp htop
    have hcost := h.finite n hn.symm
    rw [settle_of_natCast hn.symm]
    by_cases hle : n ≤ limit - spent
    · rw [if_pos hle, hcost.paid limit what spent (by omega)]
      push_cast
      rfl
    · rw [if_neg hle, hcost.short limit what spent (by omega), overdraw_natCast]

/-- An explicit draw of a natural amount from a tank. -/
theorem runOn_draw (limit : ℕ) (what : String) (spent amount : ℕ) :
    (derive (.burn (.int amount))).runOn (.whole limit what spent) =
      ((draw limit what spent amount).1, .whole limit what (draw limit what spent amount).2) := by
  have hburn := runOn_burn amount limit spent what
  have hderive : derive (.burn (.int amount)) =
      Metered.burn (.int amount) >>= fun _ => pure .null :=
    rfl
  rw [hderive, draw]
  by_cases hle : spent + amount ≤ limit
  · rw [if_neg (by omega)] at hburn
    rw [if_pos hle, Tank.whole, runOn_bind_of_ok _ hburn]
    push_cast
    rfl
  · rw [if_pos (by omega)] at hburn
    rw [if_neg hle, Tank.whole, runOn_bind_of_error _ hburn, short]
    push_cast
    rfl

/-- A session of plain queries on a tank with so much spent is its ledger. -/
theorem session_whole {price : Query → Price Datum}
    (hprice : ∀ query, ¬ query.IsDraw → Charges query.derive (price query)) (limit : ℕ)
    (what : String) (spent : ℕ) (queries : List Query) (hplain : ∀ query ∈ queries, query.IsPlain) :
    session (.whole limit what spent) queries = ledger price limit what spent queries := by
  induction queries generalizing spent with
  | nil => rfl
  | cons query rest ih =>
      have hentry : query.derive.runOn (.whole limit what spent) =
          ((entry price limit what spent query).1,
            .whole limit what (entry price limit what spent query).2) := by
        cases query with
        | burn amount =>
            obtain ⟨n, rfl⟩ := hplain (.burn amount) List.mem_cons_self
            exact runOn_draw limit what spent n
        | _ => exact runOn_settle (hprice _ id) limit what spent
      have hrest := ih (entry price limit what spent query).2
        fun query' hquery' => hplain query' (List.mem_cons_of_mem query hquery')
      change query.derive.runOn (.whole limit what spent) ::
        session (query.derive.runOn (.whole limit what spent)).2 rest = _
      rw [hentry, hrest]
      rfl

/-! ### Larger limits -/

/-- Two tanks of which the first has the smaller limit are in step as long as that one is
not overdrawn: the same amount is spent of both. -/
def InStep (limit spent spent' : ℕ) : Prop :=
  limit < spent ∨ spent = spent'

/-- Running short is not proper. -/
theorem not_isProper_short (limit : ℕ) (what : String) (spent : ℕ) :
    ¬ IsProper (short limit what spent) :=
  fun h => h _ rfl trivial

/-- A price of nothing is always paid. -/
theorem settle_of_zero {price : Price Datum} (h : price.cost = 0) (limit : ℕ) (what : String)
    (spent : ℕ) : settle limit what spent price = (price.outcome, spent) := by
  rw [settle_of_natCast (n := 0) h, if_pos (Nat.zero_le _), Nat.add_zero]

/-- Settling a price on a tank of a larger limit: a proper answer stays, and the tanks stay
in step. -/
theorem settle_mono {limit limit' spent spent' : ℕ} (hlimit : limit ≤ limit')
    (hstep : InStep limit spent spent') (what : String) (price : Price Datum) :
    (IsProper (settle limit what spent price).1 →
      (settle limit' what spent' price).1 = (settle limit what spent price).1) ∧
    InStep limit (settle limit what spent price).2 (settle limit' what spent' price).2 := by
  by_cases hzero : price.cost = 0
  · rw [settle_of_zero hzero, settle_of_zero hzero]
    exact ⟨fun _ => rfl, hstep⟩
  · by_cases hspent : spent ≤ limit
    · obtain rfl : spent = spent' := hstep.resolve_left (by omega)
      by_cases hcost : price.cost ≤ (limit - spent : ℕ)
      · have hle : limit - spent ≤ limit' - spent := by omega
        have hcost' : price.cost ≤ (limit' - spent : ℕ) := hcost.trans (Nat.cast_le.mpr hle)
        rw [settle, settle, if_pos hspent, if_pos hcost, if_pos (hspent.trans hlimit),
          if_pos hcost']
        exact ⟨fun _ => rfl, Or.inr rfl⟩
      · rw [settle, if_pos hspent, if_neg hcost]
        exact ⟨fun h => absurd h (not_isProper_short _ _ _), Or.inl (Nat.lt_succ_self limit)⟩
    · rw [settle, if_neg hspent, if_neg hzero]
      refine ⟨fun h => absurd h (not_isProper_short _ _ _), Or.inl ?_⟩
      omega

/-- An explicit draw from a tank of a larger limit. -/
theorem draw_mono {limit limit' spent spent' : ℕ} (hlimit : limit ≤ limit')
    (hstep : InStep limit spent spent') (what : String) (amount : ℕ) :
    (IsProper (draw limit what spent amount).1 →
      (draw limit' what spent' amount).1 = (draw limit what spent amount).1) ∧
    InStep limit (draw limit what spent amount).2 (draw limit' what spent' amount).2 := by
  rw [draw, draw]
  by_cases hle : spent + amount ≤ limit
  · obtain rfl : spent = spent' := hstep.resolve_left (by omega)
    rw [if_pos hle, if_pos (hle.trans hlimit)]
    exact ⟨fun _ => rfl, Or.inr rfl⟩
  · rw [if_neg hle]
    refine ⟨fun h => absurd h (not_isProper_short _ _ _), Or.inl ?_⟩
    omega

/-- **Larger limits.** Under a larger limit every answer of a session that is not that of
running short stays as it is. -/
theorem ledger_mono (price : Query → Price Datum) {limit limit' : ℕ} (hlimit : limit ≤ limit')
    (what : String) {spent spent' : ℕ} (hstep : InStep limit spent spent')
    (queries : List Query) :
    List.Forall₂ (fun small large => IsProper small.1 → large.1 = small.1)
      (ledger price limit what spent queries) (ledger price limit' what spent' queries) := by
  induction queries generalizing spent spent' with
  | nil => exact .nil
  | cons query rest ih =>
      have hentry : (IsProper (entry price limit what spent query).1 →
            (entry price limit' what spent' query).1 = (entry price limit what spent query).1) ∧
          InStep limit (entry price limit what spent query).2
            (entry price limit' what spent' query).2 := by
        cases query with
        | burn amount =>
            cases amount with
            | int n => exact draw_mono hlimit hstep what n.toNat
            | _ => exact settle_mono hlimit hstep what _
        | _ => exact settle_mono hlimit hstep what _
      exact .cons hentry.1 (ih hentry.2)

/-- **A session is its ledger.** Every call has a price, an outcome that is a value or a
fault of its own and a cost that is infinite exactly for a run without end, such that on a
fresh tank of any limit a session of calls and explicit draws, in any order, is the ledger
of these prices. Under a larger limit the answers stay as they are, but for those of
running short. -/
theorem session_eq_ledger :
    ∃ price : Query → Price Datum,
      (∀ query, IsProper (price query).outcome ∧ ((price query).cost = ⊤ ↔ query.NeverHalts)) ∧
      ∀ (limit : ℕ) (what : String) (queries : List Query), (∀ query ∈ queries, query.IsPlain) →
        Tank.ofLimit (.int limit) what = .ok (.whole limit what 0) ∧
        session (.whole limit what 0) queries = ledger price limit what 0 queries ∧
        ∀ limit', limit ≤ limit' →
          List.Forall₂ (fun small large => IsProper small.1 → large.1 = small.1)
            (session (.whole limit what 0) queries)
            (session (.whole limit' what 0) queries) := by
  have hprices : ∀ query : Query, ∃ price : Price Datum,
      (¬ query.IsDraw → Charges query.derive price) ∧ IsProper price.outcome ∧
        (price.cost = ⊤ ↔ query.NeverHalts) := by
    intro query
    by_cases hdraw : query.IsDraw
    · refine ⟨⟨0, .ok .null⟩, fun h => absurd hdraw h, isProper_ok _, ?_⟩
      cases query with
      | burn amount => simp [NeverHalts]
      | _ => exact absurd hdraw id
    · obtain ⟨price, hcharges, htop⟩ := exists_charges query hdraw
      exact ⟨price, fun _ => hcharges, hcharges.proper, htop⟩
  choose price hcharges hproper htop using hprices
  refine ⟨price, fun query => ⟨hproper query, htop query⟩, fun limit what queries hplain => ?_⟩
  have hsession (limit : ℕ) :
      session (.whole limit what 0) queries = ledger price limit what 0 queries :=
    session_whole hcharges limit what 0 queries hplain
  refine ⟨Tank.ofLimit_natCast limit what, hsession limit, fun limit' hlimit => ?_⟩
  rw [hsession limit, hsession limit']
  exact ledger_mono price hlimit what (Or.inr rfl) queries

end Metered.Query
