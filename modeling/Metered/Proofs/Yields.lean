import Metered.Proofs.BitRow
import Metered.Proofs.Primality
import Metered.Proofs.Proper

/-!
# What Derivations Yield

A derivation **yields** a property if, on every tank whatever, it ends with a value that has the
property, or with the fault of running short. So no check within such a derivation ever fails. The
property of the value is what the checks that follow rely on: a divisor is not zero, the cells of a
row equal bits.

All arithmetic on natural numbers yields its values, but for a division by zero. So do the sweeps,
generations and histories of every row whose cells pass the check of rows, which need not be
written as bits: each generation passes the check again.

## Main results

* `Yields.bind`: what follows on a derivation may rely on what it yields;
* `yields_isPrime`: the trial divisors are never zero;
* `yields_sweep`, `yields_successor`, `yields_extend`: a row that passes the check has a next
  generation that passes it.
-/

open Metered.Derivation

namespace Metered

/-! ### Drawing a unit -/

/-- One can be added to every number: it is not too large for the floating-point format. -/
theorem Number.exists_add_one (x : Number) : ∃ sum, x.add? 1 = some sum := by
  cases x with
  | real a =>
      have hone : Binary64.ofInt? 1 = some (.finite false 0x10000000000000 (-52)) := by decide
      have hsum : (Number.real a).add? 1 =
          (Binary64.ofInt? 1).map fun b => .real (a.add b) := rfl
      rw [hone] at hsum
      exact ⟨_, hsum⟩
  | _ => exact ⟨_, rfl⟩

namespace Derivation

variable {α β : Type}

/-- Drawing a unit from any tank whatever, one with an infinite limit or a fraction of a unit spent
included. -/
theorem exists_runOn_burn (tank : Tank) :
    ∃ rest : Tank, (burn 1).runOn tank =
      if rest.isOverdrawn then (.error rest.exceeded, rest) else (.ok (), rest) := by
  obtain ⟨sum, hsum⟩ := tank.spent.exists_add_one
  have hspend : tank.spend? 1 = some { tank with spent := sum } := by
    rw [Tank.spend?, hsum]
    rfl
  have hget : runOn (get : Derivation Tank) tank = (.ok tank, tank) := rfl
  have hset (rest : Tank) : runOn (set rest : Derivation PUnit) tank = (.ok (), rest) := rfl
  refine ⟨{ tank with spent := sum }, ?_⟩
  rw [burn, runOn_bind_of_ok _ hget, hspend]
  refine (runOn_bind_of_ok _ (hset _)).trans ?_
  split <;> rfl

/-! ### Yielding a property -/

/-- **A derivation yields a property** if it ends with a value that has it or runs short of the
budget, on every tank. -/
structure Yields (derivation : Derivation α) (property : α → Prop) : Prop where
  value : ∀ tank a, (derivation.runOn tank).1 = .ok a → property a
  fault : ∀ tank fault, (derivation.runOn tank).1 = .error fault → IsBudgetFault fault

/-- A value with a property. -/
theorem yields_pure {property : α → Prop} {a : α} (h : property a) :
    Yields (pure a) property where
  value tank b hb := by
    cases hb
    exact h
  fault tank fault hfault := by cases hfault

/-- A check that succeeds. -/
theorem yields_check {check : Except Fault α} {a : α} (hcheck : check = .ok a)
    {property : α → Prop} (h : property a) : Yields (liftM check) property := by
  subst hcheck
  exact yields_pure h

/-- Drawing a unit. -/
theorem yields_burn : Yields (burn 1) fun _ => True where
  value _ _ _ := trivial
  fault tank fault hfault := by
    obtain ⟨rest, hrun⟩ := exists_runOn_burn tank
    rw [hrun] at hfault
    split at hfault
    · cases hfault
      trivial
    · cases hfault

/-- **Composition.** What follows on a derivation may rely on what it yields. -/
theorem Yields.bind {first : Derivation α} {next : α → Derivation β} {between : α → Prop}
    {property : β → Prop} (hfirst : Yields first between)
    (hnext : ∀ a, between a → Yields (next a) property) : Yields (first >>= next) property where
  value tank b hb := by
    cases hrun : first.runOn tank with
    | mk outcome rest =>
        cases outcome with
        | error fault =>
            rw [runOn_bind_of_error next hrun] at hb
            cases hb
        | ok a =>
            rw [runOn_bind_of_ok next hrun] at hb
            exact (hnext a (hfirst.value tank a (by rw [hrun]))).value rest b hb
  fault tank fault hfault := by
    cases hrun : first.runOn tank with
    | mk outcome rest =>
        cases outcome with
        | error fault' =>
            rw [runOn_bind_of_error next hrun] at hfault
            cases hfault
            exact hfirst.fault tank fault (by rw [hrun])
        | ok a =>
            rw [runOn_bind_of_ok next hrun] at hfault
            exact (hnext a (hfirst.value tank a (by rw [hrun]))).fault rest fault hfault

/-- A unit is drawn before what follows it. -/
theorem Yields.burn_bind {next : Unit → Derivation β} {property : β → Prop}
    (h : Yields (next ()) property) : Yields (burn 1 >>= next) property :=
  yields_burn.bind fun _ _ => h

/-- A check that succeeds does not keep what follows it from yielding a property. -/
theorem Yields.check_bind {check : Except Fault α} {a : α} (hcheck : check = .ok a)
    {next : α → Derivation β} {property : β → Prop} (h : Yields (next a) property) :
    Yields (liftM check >>= next) property :=
  (yields_check hcheck rfl).bind fun _ heq => heq ▸ h

/-- Nothing follows on a check that fails. -/
theorem check_bind_of_error {check : Except Fault α} {fault : Fault} (h : check = .error fault)
    (next : α → Derivation β) : liftM check >>= next = throw fault := by
  subst h
  rfl

/-- A function of the value. -/
theorem Yields.map {derivation : Derivation α} {property : α → Prop} {image : β → Prop}
    (f : α → β) (h : Yields derivation property) (himage : ∀ a, property a → image (f a)) :
    Yields (f <$> derivation) image := by
  rw [← bind_pure_comp]
  exact h.bind fun a ha => yields_pure (himage a ha)

/-- The property may be set aside. -/
theorem Yields.trivially {derivation : Derivation α} {property : α → Prop}
    (h : Yields derivation property) : Yields derivation fun _ => True where
  value _ _ _ := trivial
  fault := h.fault

/-- What a derivation draws units for. -/
theorem Draws.yields {derivation : Derivation α} {n : ℕ} {a : α}
    (h : Draws derivation n (.ok a)) : Yields derivation (· = a) := by
  rw [h]
  clear h
  induction n with
  | zero => exact yields_pure rfl
  | succ n ih => exact ih.burn_bind

end Derivation

/-! ### Primality -/

namespace Unary

/-- A run of trials: a trial divisor is not zero, and the next one is larger. -/
theorem yields_trialDivision (n rounds : ℕ) {d : ℕ} (hd : 0 < d) :
    Yields (trialDivision n rounds d) fun _ => True := by
  induction rounds generalizing d with
  | zero => exact yields_pure trivial
  | succ rounds ih =>
      refine Yields.burn_bind ((draws_multiply d d).yields.bind fun square _ => ?_)
      refine (draws_isLess n square).yields.bind fun less _ => ?_
      split
      · exact yields_pure trivial
      · refine (draws_divides hd n).yields.bind fun found _ => ?_
        split
        · exact yields_pure trivial
        · refine (draws_add d 2).yields.bind fun next hnext => ih ?_
          omega

/-- The test for primality. -/
theorem yields_isPrime (n : ℕ) : Yields (isPrime n) fun _ => True := by
  rw [isPrime]
  split_ifs
  · exact yields_pure trivial
  · exact yields_pure trivial
  · refine (draws_divides Nat.two_pos n).yields.bind fun even _ => ?_
    split
    · exact yields_pure trivial
    · exact yields_trialDivision n n (by decide)

end Unary

/-! ### Rows -/

namespace Datum

/-- A datum that equals a bit, whatever it is written as. -/
def EqualsBit (d : Datum) : Prop :=
  ∃ bit, d.bit? = some bit

/-- Zero equals a bit. -/
theorem equalsBit_zero : EqualsBit 0 :=
  ⟨false, rfl⟩

/-- A datum that equals a bit can be a key. -/
theorem EqualsBit.unhashable? {d : Datum} (h : d.EqualsBit) : d.unhashable? = none := by
  obtain ⟨bit, hbit⟩ := h
  cases d with
  | bool _ | int _ | real _ => rfl
  | _ => cases hbit

/-- A cell that may stand in a row equals a bit. -/
theorem equalsBit_of_isCell {d : Datum} (h : Row.isCell d = true) : d.EqualsBit := by
  cases d with
  | bool _ => cases h
  | _ => exact Option.isSome_iff_exists.mp h

end Datum

/-- A row whose cells may all stand in it. -/
def Row.IsFit (row : List Datum) : Prop :=
  ∀ cell ∈ row, isCell cell = true

namespace Rule

/-- A look-up of three data that equal bits yields a bit. -/
theorem exists_apply (rule : Rule) {prev cur next : Datum} (hprev : prev.EqualsBit)
    (hcur : cur.EqualsBit) (hnext : next.EqualsBit) :
    ∃ bit, rule.apply prev cur next = .ok (.ofBit bit) := by
  have hkey : (Datum.tuple [prev, cur, next]).unhashable? = none := by
    simp [Datum.unhashable?, Datum.unhashableItem?, hprev.unhashable?, hcur.unhashable?,
      hnext.unhashable?]
  obtain ⟨p, hp⟩ := hprev
  obtain ⟨c, hc⟩ := hcur
  obtain ⟨n, hn⟩ := hnext
  exact ⟨rule.output p c n, by rw [apply, hkey, hp, hc, hn]⟩

/-- A look-up of three data that equal bits yields a cell that may stand in a row. -/
theorem yields_apply (rule : Rule) {prev cur next : Datum} (hprev : prev.EqualsBit)
    (hcur : cur.EqualsBit) (hnext : next.EqualsBit) :
    Yields (rule.apply prev cur next) fun cell => Row.isCell cell = true := by
  obtain ⟨bit, happly⟩ := rule.exists_apply hprev hcur hnext
  exact yields_check happly (Row.isCell_ofBit bit)

/-- A sweep over data that equal bits yields cells that may stand in a row. -/
theorem yields_sweep (rule : Rule) {prev cur : Datum} {rest : List Datum}
    (hprev : prev.EqualsBit) (hcur : cur.EqualsBit) (hrest : ∀ d ∈ rest, d.EqualsBit) :
    Yields (rule.sweep prev cur rest) Row.IsFit := by
  induction rest generalizing prev cur with
  | nil =>
      refine Yields.burn_bind ?_
      refine (rule.yields_apply hprev hcur Datum.equalsBit_zero).bind fun cell hcell => ?_
      exact yields_pure (List.forall_mem_singleton.mpr hcell)
  | cons next rest ih =>
      obtain ⟨hnext, hrest⟩ := List.forall_mem_cons.mp hrest
      refine Yields.burn_bind ?_
      refine (rule.yields_apply hprev hcur hnext).bind fun cell hcell => ?_
      refine (ih hcur hnext hrest).bind fun cells hcells => ?_
      exact yields_pure (List.forall_mem_cons.mpr ⟨hcell, hcells⟩)

/-- **The next generation** of a row that passes the check passes it again. -/
theorem yields_successor (rule : Rule) {row : List Datum} (hrow : Row.IsFit row) :
    Yields (rule.successor row) Row.IsFit := by
  refine Yields.check_bind (Row.check_of_forall hrow) ?_
  have hbits : ∀ d ∈ row, d.EqualsBit := fun d hd => Datum.equalsBit_of_isCell (hrow d hd)
  cases row with
  | nil => exact yields_pure (List.forall_mem_nil _)
  | cons first rest =>
      obtain ⟨hfirst, hrest⟩ := List.forall_mem_cons.mp hbits
      have hzero := Datum.equalsBit_zero
      refine (rule.yields_sweep hzero hfirst hrest).bind fun cells hcells => ?_
      refine (rule.yields_apply hzero hzero hfirst).bind fun left hleft => ?_
      have hrow : Row.IsFit (left :: cells) := List.forall_mem_cons.mpr ⟨hleft, hcells⟩
      split
      · have hlast : (rest.getLast?.getD first).EqualsBit := by
          cases hrest : rest.getLast? with
          | none => exact hfirst
          | some last => exact hbits last (List.mem_cons_of_mem first (List.mem_of_getLast? hrest))
        refine (rule.yields_apply hlast hzero hzero).bind fun right hright => ?_
        exact yields_pure (List.forall_mem_append.mpr
          ⟨hrow, List.forall_mem_singleton.mpr hright⟩)
      · exact yields_pure hrow

/-- Every generation of a row that passes the check passes it. -/
theorem yields_extend (rule : Rule) (past : List (List Datum)) {row : List Datum}
    (hrow : Row.IsFit row) (n : ℕ) : Yields (rule.extend past row n) fun _ => True := by
  induction n generalizing past row with
  | zero => exact yields_pure trivial
  | succ n ih =>
      refine Yields.burn_bind ?_
      exact (rule.yields_successor hrow).bind fun next hnext => ih (row :: past) hnext

/-! ### Rows given as tuples -/

/-- A tuple is taken apart without fail. -/
theorem successorDatum_tuple (rule : Rule) (row : List Datum) :
    rule.successorDatum (.tuple row) = rule.successor row := by
  cases hcheck : Row.check "next_row" row with
  | error fault => exact (check_bind_of_error hcheck _).trans (check_bind_of_error hcheck _).symm
  | ok =>
      have hrow : rule.successorDatum (.tuple row) = liftM (Row.check "next_row" row) >>= fun _ =>
        if row.isEmpty then rule.successor row
        else liftM (Datum.tuple row).uncons >>= fun _ => rule.successor row := rfl
      rw [hrow, hcheck]
      cases row <;> rfl

/-- The items of a tuple are the row. -/
theorem historyDatum_tuple (rule : Rule) (row : List Datum) (n : ℕ) :
    rule.historyDatum (.tuple row) n = rule.history row n := rfl

end Rule

end Metered
