import Metered.Proofs.Rechecked
import Metered.Proofs.Yields

/-!
# Refused Operands

A query on operands is **refused** if one of them is not what it should be: the first operand that
is no natural number, in the order in which the call takes them, then a divisor of zero, then the
first cell that may not stand in a row. `Query.Refuses` says so of the operands alone, with the
fault and its kind.

A refusal comes before anything else. It leaves the tank as it is, whatever the tank, and a query
that is not refused ends with a value or runs short of the budget: no check that comes later, at any
depth, fails.

## Main results

* `check_of_isFirstNot`: the check of a row finds out the first cell that is unfit;
* `derive_of_operand`, `derive_of_divisor`, `derive_of_cell`: the refusals, each before the next;
* `runOn_derive_of_refuses`: a query that is refused leaves the tank as it is;
* `refuses_or_yields`: a query that is not;
* `refusals_are_exact`: the two together.
-/

open Metered.Derivation

namespace Metered

/-! ### Unfit operands and cells -/

/-- The first of several data that does not have a property. -/
inductive IsFirstNot (property : Datum → Prop) : List Datum → Datum → Prop
  | head {d : Datum} {rest : List Datum} (h : ¬ property d) : IsFirstNot property (d :: rest) d
  | tail {x d : Datum} {rest : List Datum} (hx : property x) (h : IsFirstNot property rest d) :
      IsFirstNot property (x :: rest) d

/-- Several data have a property unless there is a first one that does not. -/
theorem forall_or_exists_isFirstNot (property : Datum → Prop) (items : List Datum) :
    (∀ d ∈ items, property d) ∨ ∃ d, IsFirstNot property items d := by
  induction items with
  | nil => exact .inl (List.forall_mem_nil _)
  | cons x rest ih =>
      by_cases hx : property x
      · obtain hrest | ⟨d, hd⟩ := ih
        · exact .inl (List.forall_mem_cons.mpr ⟨hx, hrest⟩)
        · exact .inr ⟨d, .tail hx hd⟩
      · exact .inr ⟨x, .head hx⟩

/-- The first of several data that does not have a property does not have it. -/
theorem IsFirstNot.not_property {property : Datum → Prop} {items : List Datum} {d : Datum}
    (h : IsFirstNot property items d) : ¬ property d := by
  induction h with
  | head h => exact h
  | tail _ _ ih => exact ih

/-- A datum that may stand in a row: no truth value, and equal to zero or one. -/
def Datum.IsRowCell (d : Datum) : Prop :=
  (∀ value, d ≠ .bool value) ∧
    (Datum.equals (.int 0) d = true ∨ Datum.equals (.int 1) d = true)

namespace Row

/-- The check of a cell asks whether it may stand in a row. -/
theorem isCell_iff (d : Datum) : isCell d = true ↔ d.IsRowCell := by
  have hzero : Datum.equals (.int 0) d = decide (d.bit? = some false) := Table.equals_ofBit false d
  have hone : Datum.equals (.int 1) d = decide (d.bit? = some true) := Table.equals_ofBit true d
  have hbit : d.bit?.isSome = true ↔ d.bit? = some false ∨ d.bit? = some true := by
    cases d.bit? with
    | none => simp
    | some bit => cases bit <;> simp
  rw [Datum.IsRowCell, hzero, hone, decide_eq_true_iff, decide_eq_true_iff, ← hbit]
  cases d <;> simp [isCell]

/-- **The first unfit cell** is the one that is found out. -/
theorem check_of_isFirstNot {op : String} {row : List Datum} {cell : Datum}
    (hfirst : IsFirstNot Datum.IsRowCell row cell) : check op row = .error (.notBit op cell) := by
  have hcell (d : Datum) : (! isCell d) = true ↔ ¬ d.IsRowCell := by
    rw [← isCell_iff, Bool.not_eq_true', Bool.not_eq_true]
  have hfind : row.find? (! isCell ·) = some cell := by
    induction hfirst with
    | head h => exact List.find?_cons_of_pos ((hcell _).mpr h)
    | tail hx _ ih =>
        rwa [List.find?_cons_of_neg (p := (! isCell ·)) fun h => (hcell _).mp h hx]
  rw [check, hfind]

end Row

/-! ### Refused queries -/

namespace Query

/-- The name under which a call checks its operands, and those that must be natural numbers, in the
order of the check. A row must be given as a tuple. -/
def operands : Query → Option (String × List Datum)
  | tally n => some ("pad", [n])
  | add a b => some ("add", [a, b])
  | subtract a b => some ("subtract", [a, b])
  | isLess a b => some ("subtract", [b, a])
  | multiply a b => some ("multiply", [a, b])
  | divide a b => some ("divide", [a, b])
  | divides a b => some ("divides", [a, b])
  | isEven n => some ("divides", [n])
  | isPrime n => some ("is_prime", [n])
  | successor _ (.tuple _) => some ("next_row", [])
  | history _ (.tuple _) n => some ("iterate", [n])
  | _ => none

/-- The operand that something is divided by. -/
def divisor? : Query → Option Datum
  | divide _ b => some b
  | divides a _ => some a
  | _ => none

/-- The cells of the row that a call is about. -/
def cells : Query → List Datum
  | successor _ (.tuple cells) => cells
  | history _ (.tuple cells) _ => cells
  | _ => []

/-- **A query is refused** with a fault of a kind: for its first operand that is no natural number;
if all are, for a divisor of zero; if there is none, for its first cell that may not stand in a
row. -/
inductive Refuses (query : Query) : FaultKind → Fault → Prop
  | operand {op : String} {operands : List Datum} {d : Datum} {kind : FaultKind} {fault : Fault}
      (hoperands : query.operands = some (op, operands))
      (hfirst : IsFirstNot Datum.IsNatural operands d) (hunfit : Operand.IsUnfit op d kind fault) :
      Refuses query kind fault
  | divisor {op : String} {operands : List Datum}
      (hoperands : query.operands = some (op, operands))
      (hnatural : ∀ d ∈ operands, d.IsNatural) (hzero : query.divisor? = some (.int 0)) :
      Refuses query .divisionByZero (.divisionByZero op)
  | cell {op : String} {operands : List Datum} {cell : Datum}
      (hoperands : query.operands = some (op, operands))
      (hnatural : ∀ d ∈ operands, d.IsNatural)
      (hfirst : IsFirstNot Datum.IsRowCell query.cells cell) :
      Refuses query .wrongValue (.notBit op cell)

/-! ### Queries that are refused -/

variable {α : Type}

/-- An operand that is no natural number. -/
theorem onNatural_of_isFirstNot {op : String} {n d : Datum} {kind : FaultKind} {fault : Fault}
    (hfirst : IsFirstNot Datum.IsNatural [n] d) (hunfit : Operand.IsUnfit op d kind fault)
    (f : ℕ → Derivation α) : onNatural op n f = throw fault := by
  cases hfirst with
  | head _ =>
      rw [onNatural, hunfit.natural_eq]
      rfl
  | tail _ hrest => cases hrest

/-- The first of two operands that is no natural number. -/
theorem onNaturals_of_isFirstNot {op : String} {a b d : Datum} {kind : FaultKind} {fault : Fault}
    (hfirst : IsFirstNot Datum.IsNatural [a, b] d) (hunfit : Operand.IsUnfit op d kind fault)
    (f : ℕ → ℕ → Derivation α) : onNaturals op a b f = throw fault := by
  cases hfirst with
  | head _ =>
      rw [onNaturals, hunfit.natural_eq]
      rfl
  | tail ha hrest =>
      obtain ⟨m, rfl⟩ := ha
      have hsecond := onNatural_of_isFirstNot hrest hunfit (f m)
      rw [onNaturals, Operand.natural_natCast]
      exact hsecond

/-- **Operands come first.** A query with an operand that is no natural number does nothing else. -/
theorem derive_of_operand {query : Query} {op : String} {operands : List Datum} {d : Datum}
    {kind : FaultKind} {fault : Fault} (hoperands : query.operands = some (op, operands))
    (hfirst : IsFirstNot Datum.IsNatural operands d) (hunfit : Operand.IsUnfit op d kind fault) :
    query.derive = throw fault := by
  cases query with
  | tally n | isEven n | isPrime n =>
      cases hoperands
      rw [derive, onNatural_of_isFirstNot hfirst hunfit]
      rfl
  | add a b | subtract a b | isLess a b | multiply a b | divide a b | divides a b =>
      cases hoperands
      rw [derive, onNaturals_of_isFirstNot hfirst hunfit]
      rfl
  | successor rule row =>
      cases row with
      | tuple cells =>
          cases hoperands
          cases hfirst
      | _ => cases hoperands
  | history rule row n =>
      cases row with
      | tuple cells =>
          cases hoperands
          rw [derive, onNatural_of_isFirstNot hfirst hunfit]
          rfl
      | _ => cases hoperands
  | _ => cases hoperands

/-- Then comes a divisor of zero. -/
theorem derive_of_divisor {query : Query} {op : String} {operands : List Datum}
    (hoperands : query.operands = some (op, operands))
    (hnatural : ∀ d ∈ operands, d.IsNatural) (hzero : query.divisor? = some (.int 0)) :
    query.derive = throw (.divisionByZero op) := by
  cases query with
  | divide a b =>
      cases hoperands
      cases hzero
      obtain ⟨m, rfl⟩ := hnatural a List.mem_cons_self
      exact congrArg (ofNat <$> ·) (onNaturals_natCast "divide" m 0 Unary.divide)
  | divides a b =>
      cases hoperands
      cases hzero
      obtain ⟨n, rfl⟩ := hnatural b (List.mem_cons_of_mem _ List.mem_cons_self)
      exact congrArg (Datum.bool <$> ·) (onNaturals_natCast "divides" 0 n Unary.divides)
  | _ => cases hzero

/-- Then comes a cell that may not stand in a row. -/
theorem derive_of_cell {query : Query} {op : String} {operands : List Datum} {cell : Datum}
    (hoperands : query.operands = some (op, operands))
    (hnatural : ∀ d ∈ operands, d.IsNatural)
    (hfirst : IsFirstNot Datum.IsRowCell query.cells cell) :
    query.derive = throw (.notBit op cell) := by
  cases query with
  | successor rule row =>
      cases row with
      | tuple cells =>
          cases hoperands
          have hcheck : Row.check "next_row" cells = _ := Row.check_of_isFirstNot hfirst
          rw [derive, Rule.successorDatum_tuple, Rule.successor.eq_def,
            check_bind_of_error hcheck]
          rfl
      | _ => cases hoperands
  | history rule row n =>
      cases row with
      | tuple cells =>
          cases hoperands
          obtain ⟨m, rfl⟩ := hnatural n List.mem_cons_self
          have hcheck : Row.check "iterate" cells = _ := Row.check_of_isFirstNot hfirst
          rw [derive, onNatural_natCast, Rule.historyDatum_tuple, Rule.history.eq_def,
            check_bind_of_error hcheck]
          rfl
      | _ => cases hoperands
  | _ => cases hfirst

/-- **A refusal comes before anything else** and leaves the tank as it is. -/
theorem runOn_derive_of_refuses {query : Query} {kind : FaultKind} {fault : Fault}
    (h : query.Refuses kind fault) (tank : Tank) :
    query.derive.runOn tank = (.error fault, tank) := by
  have hthrow : query.derive = throw fault := by
    cases h with
    | operand hoperands hfirst hunfit => exact derive_of_operand hoperands hfirst hunfit
    | divisor hoperands hnatural hzero => exact derive_of_divisor hoperands hnatural hzero
    | cell hoperands hnatural hfirst => exact derive_of_cell hoperands hnatural hfirst
  rw [hthrow, runOn_throw]

/-- The fault of a refusal is of its kind. -/
theorem Refuses.report_kind {query : Query} {kind : FaultKind} {fault : Fault}
    (h : query.Refuses kind fault) : fault.report.kind = kind := by
  cases h with
  | operand _ _ hunfit => exact hunfit.report_kind
  | divisor => rfl
  | cell => rfl

/-! ### Queries that are not refused -/

/-- A row that is not refused passes the check of rows. -/
theorem isFit_of_forall {row : List Datum} (h : ∀ cell ∈ row, cell.IsRowCell) : Row.IsFit row :=
  fun cell hcell => (Row.isCell_iff cell).mpr (h cell hcell)

/-- An operation on a natural operand. -/
theorem yields_onNatural {op : String} {n : Datum} {operands : List Datum}
    (hnatural : ∀ d ∈ n :: operands, d.IsNatural) {f : ℕ → Derivation α}
    (h : ∀ m, Yields (f m) fun _ => True) : Yields (onNatural op n f) fun _ => True := by
  obtain ⟨m, rfl⟩ := hnatural n List.mem_cons_self
  rw [onNatural_natCast]
  exact h m

/-- An operation on two natural operands. -/
theorem yields_onNaturals {op : String} {a b : Datum} (hnatural : ∀ d ∈ [a, b], d.IsNatural)
    {f : ℕ → ℕ → Derivation α}
    (h : ∀ m n : ℕ, a = .int m → b = .int n → Yields (f m n) fun _ => True) :
    Yields (onNaturals op a b f) fun _ => True := by
  obtain ⟨m, rfl⟩ := hnatural a List.mem_cons_self
  obtain ⟨n, rfl⟩ := hnatural b (List.mem_cons_of_mem _ List.mem_cons_self)
  rw [onNaturals_natCast]
  exact h m n rfl rfl

/-- **Nothing else fails.** A query yields a value if its operands are natural numbers, nothing is
divided by zero, and all cells of its row may stand there. -/
theorem yields_derive {query : Query} {op : String} {operands : List Datum}
    (hoperands : query.operands = some (op, operands))
    (hnatural : ∀ d ∈ operands, d.IsNatural) (hdivisor : query.divisor? ≠ some (.int 0))
    (hcells : ∀ cell ∈ query.cells, cell.IsRowCell) : Yields query.derive fun _ => True := by
  have hpositive {d : Datum} {n : ℕ} (hd : query.divisor? = some d) (hn : d = .int n) : 0 < n := by
    refine Nat.pos_of_ne_zero ?_
    rintro rfl
    exact hdivisor (hd.trans (congrArg some hn))
  have hvalue {β : Type} {derivation : Derivation β} (image : β → Datum)
      (h : Yields derivation fun _ => True) : Yields (image <$> derivation) fun _ => True :=
    h.map image fun _ _ => trivial
  cases query with
  | tally n =>
      cases hoperands
      exact (yields_onNatural hnatural fun m => (Unary.draws_tally m).yields.trivially).bind
        fun _ _ => yields_pure trivial
  | add a b =>
      cases hoperands
      exact hvalue _ (yields_onNaturals hnatural fun m n _ _ =>
        (Unary.draws_add m n).yields.trivially)
  | subtract a b =>
      cases hoperands
      exact hvalue _ (yields_onNaturals hnatural fun m n _ _ =>
        (Unary.draws_subtract m n).yields.trivially)
  | isLess a b =>
      cases hoperands
      exact hvalue _ (yields_onNaturals hnatural fun n m _ _ =>
        (Unary.draws_isLess m n).yields.trivially)
  | multiply a b =>
      cases hoperands
      exact hvalue _ (yields_onNaturals hnatural fun m n _ _ =>
        (Unary.draws_multiply m n).yields.trivially)
  | divide a b =>
      cases hoperands
      exact hvalue _ (yields_onNaturals hnatural fun m n _ hb =>
        (Unary.draws_divide m (hpositive rfl hb)).yields.trivially)
  | divides a b =>
      cases hoperands
      exact hvalue _ (yields_onNaturals hnatural fun m n ha _ =>
        (Unary.draws_divides (hpositive rfl ha) n).yields.trivially)
  | isEven n =>
      cases hoperands
      exact hvalue _ (yields_onNatural hnatural fun m =>
        (Unary.draws_divides Nat.two_pos m).yields.trivially)
  | isPrime n =>
      cases hoperands
      exact hvalue _ (yields_onNatural hnatural Unary.yields_isPrime)
  | successor rule row =>
      cases row with
      | tuple cells =>
          rw [derive, Rule.successorDatum_tuple]
          exact hvalue _ (rule.yields_successor (isFit_of_forall hcells)).trivially
      | _ => cases hoperands
  | history rule row n =>
      cases row with
      | tuple cells =>
          cases hoperands
          have hfit : Row.IsFit cells := isFit_of_forall hcells
          refine (yields_onNatural hnatural fun m => ?_).bind fun _ _ => yields_pure trivial
          rw [Rule.historyDatum_tuple]
          exact Yields.check_bind (Row.check_of_forall hfit) (rule.yields_extend [] hfit m)
      | _ => cases hoperands
  | _ => cases hoperands

/-- A query on operands is refused, or it yields a value. -/
theorem refuses_or_yields {query : Query} {op : String} {operands : List Datum}
    (hoperands : query.operands = some (op, operands)) :
    (∃ kind fault, query.Refuses kind fault) ∨ Yields query.derive fun _ => True := by
  obtain hnatural | ⟨d, hd⟩ := forall_or_exists_isFirstNot Datum.IsNatural operands
  · by_cases hzero : query.divisor? = some (.int 0)
    · exact .inl ⟨_, _, .divisor hoperands hnatural hzero⟩
    · obtain hcells | ⟨cell, hcell⟩ := forall_or_exists_isFirstNot Datum.IsRowCell query.cells
      · exact .inr (yields_derive hoperands hnatural hzero hcells)
      · exact .inl ⟨_, _, .cell hoperands hnatural hcell⟩
  · obtain hnatural | ⟨kind, fault, hunfit⟩ := Operand.natural_cases op d
    · exact absurd hnatural hd.not_property
    · exact .inl ⟨kind, fault, .operand hoperands hd hunfit⟩

/-- **Refusals are exact.** Take any query on operands, its row given as a tuple, and any tank. If
the query is refused, it ends with the fault of the refusal, and the tank is left as it is. A fault
of any kind other than running short is that of a refusal. This is so at every depth: the derivation
is the same if all operations within it check their operands again. -/
theorem refusals_are_exact {query : Query} {op : String} {operands : List Datum}
    (hoperands : query.operands = some (op, operands)) (tank : Tank) :
    (∀ kind fault, query.Refuses kind fault →
      query.derive.runOn tank = (.error fault, tank)) ∧
    (∀ kind fault, kind ≠ .budgetExceeded →
      ((query.derive.runOn tank).1 = .error fault ∧ fault.report.kind = kind ↔
        query.Refuses kind fault)) ∧
    query.derive = query.rechecked := by
  refine ⟨fun kind fault h => runOn_derive_of_refuses h tank, fun kind fault hkind => ?_,
    query.derive_eq_rechecked⟩
  constructor
  · rintro ⟨hfault, rfl⟩
    obtain ⟨kind, refusal, h⟩ | hyields := refuses_or_yields hoperands
    · rw [runOn_derive_of_refuses h tank] at hfault
      cases hfault
      rwa [h.report_kind]
    · have hbudget := hyields.fault tank fault hfault
      cases fault with
      | budgetExceeded => exact absurd rfl hkind
      | _ => exact absurd hbudget id
  · intro h
    exact ⟨by rw [runOn_derive_of_refuses h tank], h.report_kind⟩

/-- On a tank that is overdrawn already nothing is drawn for a refusal: a comparison refuses its
second operand before the first, zero is refused as a divisor even of zero, and a row with a text in
it is refused even where no generation of it is asked for. -/
theorem refusals_are_exact_overdrawn :
    let tank := Tank.whole 3 "evaluation" 5
    let comparison := isLess (.int (-1)) (.bool true)
    let division := divides (.int 0) (.int 0)
    let generations := history Rule.rule110 (.tuple [.int 1, .text "1", .bool true]) (.int 0)
    comparison.operands = some ("subtract", [.bool true, .int (-1)]) ∧
    comparison.Refuses .wrongType (.notNatural "subtract" (.bool true)) ∧
    comparison.derive.runOn tank = (.error (.notNatural "subtract" (.bool true)), tank) ∧
    division.operands = some ("divides", [.int 0, .int 0]) ∧
    division.Refuses .divisionByZero (.divisionByZero "divides") ∧
    division.derive.runOn tank = (.error (.divisionByZero "divides"), tank) ∧
    generations.operands = some ("iterate", [.int 0]) ∧
    generations.Refuses .wrongValue (.notBit "iterate" (.text "1")) ∧
    generations.derive.runOn tank = (.error (.notBit "iterate" (.text "1")), tank) := by
  intro tank comparison division generations
  have hzero : ∀ d ∈ [Datum.int 0, Datum.int 0], d.IsNatural :=
    List.forall_mem_cons.mpr ⟨⟨0, rfl⟩, List.forall_mem_singleton.mpr ⟨0, rfl⟩⟩
  have hcomparison : comparison.Refuses .wrongType (.notNatural "subtract" (.bool true)) :=
    .operand rfl (.head (by rintro ⟨_, h⟩; cases h)) (.notInteger fun n h => by cases h)
  have hdivision : division.Refuses .divisionByZero (.divisionByZero "divides") :=
    .divisor rfl hzero rfl
  have hgenerations : generations.Refuses .wrongValue (.notBit "iterate" (.text "1")) := by
    refine .cell rfl (List.forall_mem_singleton.mpr ⟨0, rfl⟩) (.tail ?_ (.head ?_))
    · exact (Row.isCell_iff _).mp rfl
    · exact fun h => absurd ((Row.isCell_iff _).mpr h) (by decide)
  exact ⟨rfl, hcomparison, (refusals_are_exact rfl tank).1 _ _ hcomparison,
    rfl, hdivision, (refusals_are_exact rfl tank).1 _ _ hdivision,
    rfl, hgenerations, (refusals_are_exact rfl tank).1 _ _ hgenerations⟩

end Query

end Metered
