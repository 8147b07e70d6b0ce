import TokenCustody.Proofs.Arithmetic

/-!
# The operations on a pool are exact

What each operation on a pool does when it succeeds, from any pool: the amounts change by exactly
what was asked for, and the pool that is left is solvent (`PoolAction.deposit_eq_ok` and its
siblings). From any pool, an operation is refused for its amounts and for nothing else
(`PoolAction.ofPool_of_deposit`, `PoolAction.ofPool_of_release`).

From a solvent pool, the checks behind the first one of an operation never fail, but for the sum of
a deposit. So each operation is decided there by a condition on the amounts
(`PoolAction.decided_deposit` and its siblings): it goes through if the condition holds; and
otherwise the refusal is one of those that a caller expects, and leaves the pool as it was
(`PoolAction.deposit_eq_error` and its siblings, `PoolAction.exact_and_atomic`).
-/

namespace TokenCustody

/-- The refusals that the amounts of a pool give rise to. -/
def Rejection.OfPool : Rejection → Prop
  | .overflow _ | .commissionGreaterThanAmount .. | .amountExceedBridgePool .. => True
  | .amountExceedCommissionPool .. | .poolInvariantViolated .. => True
  | _ => False

namespace Pool

theorem checkSolvent_eq_ok {p : Pool} : p.checkSolvent = .ok () ↔ p.Solvent := by
  rw [checkSolvent]
  split_ifs with h <;> simp [h]

theorem ofPool_of_checkSolvent {p : Pool} {e : Rejection} (h : p.checkSolvent = .error e) :
    e.OfPool := by
  rw [checkSolvent] at h
  split_ifs at h
  cases h
  trivial

theorem solvent_empty : empty.Solvent := Nat.le_refl 0

theorem ext {p q : Pool} (hheld : p.held.val = q.held.val)
    (hreserved : p.reserved.val = q.reserved.val) : p = q := by
  cases p
  cases q
  rw [mk.injEq]
  exact ⟨Amount.ext hheld, Amount.ext hreserved⟩

end Pool

namespace PoolAction

variable {p q : Pool} {a c : Amount} {e : Rejection}

/-! ### Runs as results of checked arithmetic -/

private theorem run_deposit : (deposit a c).run.run p =
    if a < c then (.error (.commissionGreaterThanAmount c a), p)
    else match p.held.add a with
      | .error cause => (.error (.overflow cause), p)
      | .ok held => match p.reserved.add c with
        | .error cause => (.error (.overflow cause), { p with held })
        | .ok reserved => (Pool.checkSolvent ⟨held, reserved⟩, ⟨held, reserved⟩) := by
  rw [deposit]
  split_ifs with h
  · simp only [run_bind, run_throw]
  · simp only [run_bind, run_get, run_within, run_modify, run_check]
    cases p.held.add a <;> simp only [mapError_ok, mapError_error]
    cases p.reserved.add c <;> rfl

private theorem run_release : (release a).run.run p =
    if p.bridgeable < a then (.error (.amountExceedBridgePool a p.bridgeable), p)
    else match p.held.sub a with
      | .error cause => (.error (.overflow cause), p)
      | .ok held => (Pool.checkSolvent { p with held }, { p with held }) := by
  simp only [release, run_bind, run_get]
  split_ifs with h
  · simp only [run_bind, run_throw]
  · simp only [run_bind, run_get, run_within, run_modify, run_check]
    cases p.held.sub a <;> rfl

private theorem run_withdraw : (withdraw a).run.run p =
    if p.reserved < a then (.error (.amountExceedCommissionPool a p.reserved), p)
    else match p.reserved.sub a with
      | .error cause => (.error (.overflow cause), p)
      | .ok reserved => match p.held.sub a with
        | .error cause => (.error (.overflow cause), { p with reserved })
        | .ok held => (Pool.checkSolvent ⟨held, reserved⟩, ⟨held, reserved⟩) := by
  simp only [withdraw, run_bind, run_get]
  split_ifs with h
  · simp only [run_bind, run_throw]
  · simp only [run_bind, run_get, run_within, run_modify, run_check]
    cases p.reserved.sub a <;> simp only [mapError_ok, mapError_error]
    cases p.held.sub a <;> rfl

/-! ### Success -/

/-- **A deposit adds the amount and its commission.** -/
theorem deposit_eq_ok : (deposit a c).run.run p = (.ok (), q) ↔
    c ≤ a ∧ q.held.val = p.held.val + a.val ∧ q.reserved.val = p.reserved.val + c.val ∧
      q.Solvent := by
  rw [run_deposit]
  constructor
  · intro h
    split_ifs at h with hlt
    · cases h
    split at h
    · cases h
    next held hheld =>
      split at h
      · cases h
      next reserved hreserved =>
        obtain ⟨hsolvent, rfl⟩ := Prod.mk.inj h
        exact ⟨Nat.le_of_not_lt hlt, Amount.add_eq_ok.mp hheld, Amount.add_eq_ok.mp hreserved,
          Pool.checkSolvent_eq_ok.mp hsolvent⟩
  · rintro ⟨hle, hheld, hreserved, hsolvent⟩
    have hlt : ¬ a < c := Nat.not_lt.mpr hle
    rw [if_neg hlt, Amount.add_eq_ok.mpr hheld, Amount.add_eq_ok.mpr hreserved]
    exact Prod.ext (Pool.checkSolvent_eq_ok.mpr hsolvent) rfl

/-- **A release takes the amount from what is held.** -/
theorem release_eq_ok : (release a).run.run p = (.ok (), q) ↔
    q.held.val + a.val = p.held.val ∧ q.reserved = p.reserved ∧ q.Solvent := by
  rw [run_release]
  constructor
  · intro h
    split_ifs at h
    · cases h
    split at h
    · cases h
    next held hheld =>
      obtain ⟨hsolvent, rfl⟩ := Prod.mk.inj h
      exact ⟨Amount.sub_eq_ok.mp hheld, rfl, Pool.checkSolvent_eq_ok.mp hsolvent⟩
  · rintro ⟨hheld, hreserved, hsolvent⟩
    have hq : q = { p with held := q.held } := Pool.ext rfl (congrArg Amount.val hreserved)
    -- what stays reserved is held afterwards, so the amount was bridgeable
    have hlt : ¬ p.bridgeable < a := by
      have : q.reserved.val ≤ q.held.val := hsolvent
      rw [hreserved] at this
      simp only [Pool.bridgeable, Amount.lt_def, Amount.val_excess]
      omega
    rw [if_neg hlt, Amount.sub_eq_ok.mpr hheld]
    change (Pool.checkSolvent { p with held := q.held }, { p with held := q.held }) = _
    rw [← hq, Pool.checkSolvent_eq_ok.mpr hsolvent]

/-- **A withdrawal takes the amount from what is reserved and from what is held.** -/
theorem withdraw_eq_ok : (withdraw a).run.run p = (.ok (), q) ↔
    q.held.val + a.val = p.held.val ∧ q.reserved.val + a.val = p.reserved.val ∧ q.Solvent := by
  rw [run_withdraw]
  constructor
  · intro h
    split_ifs at h
    · cases h
    split at h
    · cases h
    next reserved hreserved =>
      split at h
      · cases h
      next held hheld =>
        obtain ⟨hsolvent, rfl⟩ := Prod.mk.inj h
        exact ⟨Amount.sub_eq_ok.mp hheld, Amount.sub_eq_ok.mp hreserved,
          Pool.checkSolvent_eq_ok.mp hsolvent⟩
  · rintro ⟨hheld, hreserved, hsolvent⟩
    have hlt : ¬ p.reserved < a := by
      rw [Amount.lt_def]
      omega
    rw [if_neg hlt, Amount.sub_eq_ok.mpr hreserved, Amount.sub_eq_ok.mpr hheld]
    exact Prod.ext (Pool.checkSolvent_eq_ok.mpr hsolvent) rfl

/-! ### Refusal -/

/-- From any pool, a deposit is refused for its amounts. -/
theorem ofPool_of_deposit (h : (deposit a c).run.run p = (.error e, q)) : e.OfPool := by
  rw [run_deposit] at h
  split_ifs at h
  · cases h
    trivial
  split at h
  · cases h
    trivial
  · split at h
    · cases h
      trivial
    · exact Pool.ofPool_of_checkSolvent (Prod.mk.inj h).1

/-- From any pool, a release is refused for its amounts. -/
theorem ofPool_of_release (h : (release a).run.run p = (.error e, q)) : e.OfPool := by
  rw [run_release] at h
  split_ifs at h
  · cases h
    trivial
  split at h
  · cases h
    trivial
  · exact Pool.ofPool_of_checkSolvent (Prod.mk.inj h).1

/-! ### How far a solvent pool goes -/

/-- **A deposit goes into a solvent pool** if the sum of what is held is in range. -/
theorem exists_run_deposit (hp : p.Solvent) (hle : c ≤ a)
    (hsum : p.held.val + a.val < Amount.size) :
    ∃ q, (deposit a c).run.run p = (.ok (), q) := by
  have hsolvent : p.reserved.val ≤ p.held.val := hp
  have hle' : c.val ≤ a.val := hle
  let q : Pool := ⟨⟨p.held.val + a.val, hsum⟩, ⟨p.reserved.val + c.val, by omega⟩⟩
  have hq : q.reserved.val ≤ q.held.val := Nat.add_le_add hsolvent hle'
  exact ⟨q, deposit_eq_ok.mpr ⟨hle, rfl, rfl, hq⟩⟩

/-- A deposit is refused if its commission is greater than itself. -/
theorem run_deposit_of_lt (h : a < c) :
    (deposit a c).run.run p = (.error (.commissionGreaterThanAmount c a), p) := by
  rw [run_deposit, if_pos h]

/-- A deposit is refused if the sum of what is held is out of range. -/
theorem run_deposit_of_size_le (hle : c ≤ a) (hsum : Amount.size ≤ p.held.val + a.val) :
    (deposit a c).run.run p = (.error (.overflow (.sum p.held a)), p) := by
  have hlt : ¬ a < c := Nat.not_lt.mpr hle
  have hadd : p.held.add a = .error (.sum p.held a) := Amount.add_eq_error.mpr ⟨rfl, hsum⟩
  rw [run_deposit, if_neg hlt, hadd]

/-- **A release from a solvent pool** goes as far as what is bridgeable. -/
theorem exists_run_release (hp : p.Solvent) (h : a ≤ p.bridgeable) :
    ∃ q, (release a).run.run p = (.ok (), q) := by
  have hsolvent : p.reserved.val ≤ p.held.val := hp
  have hle : a.val ≤ p.held.val - p.reserved.val := h
  let q : Pool := { p with held := p.held.excess a }
  have hheld : q.held.val + a.val = p.held.val := by
    simp only [q, Amount.val_excess]
    omega
  have hq : q.reserved.val ≤ q.held.val := by
    simp only [q, Amount.val_excess]
    omega
  exact ⟨q, release_eq_ok.mpr ⟨hheld, rfl, hq⟩⟩

theorem run_release_of_lt (h : p.bridgeable < a) :
    (release a).run.run p = (.error (.amountExceedBridgePool a p.bridgeable), p) := by
  rw [run_release, if_pos h]

/-- **A withdrawal from a solvent pool** goes as far as what is reserved. -/
theorem exists_run_withdraw (hp : p.Solvent) (h : a ≤ p.reserved) :
    ∃ q, (withdraw a).run.run p = (.ok (), q) := by
  have hsolvent : p.reserved.val ≤ p.held.val := hp
  have hle : a.val ≤ p.reserved.val := h
  let q : Pool := ⟨p.held.excess a, p.reserved.excess a⟩
  have hheld : q.held.val + a.val = p.held.val := by
    simp only [q, Amount.val_excess]
    omega
  have hreserved : q.reserved.val + a.val = p.reserved.val := by
    simp only [q, Amount.val_excess]
    omega
  have hq : q.reserved.val ≤ q.held.val := by omega
  exact ⟨q, withdraw_eq_ok.mpr ⟨hheld, hreserved, hq⟩⟩

theorem run_withdraw_of_lt (h : p.reserved < a) :
    (withdraw a).run.run p = (.error (.amountExceedCommissionPool a p.reserved), p) := by
  rw [run_withdraw, if_pos h]

/-! ### Exactness -/

/-- On a pool, an action is decided by a condition: it goes through exactly if the condition holds,
and then it leaves the given amounts; otherwise it is refused for the given cause, and leaves the
pool as it was. -/
structure Decided (action : PoolAction Unit) (p : Pool) (condition : Prop) (held reserved : ℕ)
    (cause : Rejection) : Prop where
  succeeds_iff : (∃ q, action.run.run p = (.ok (), q)) ↔ condition
  leaves : ∀ q, action.run.run p = (.ok (), q) → q.held.val = held ∧ q.reserved.val = reserved
  refused : ¬ condition → action.run.run p = (.error cause, p)

theorem Decided.of_cases {action : PoolAction Unit} {condition : Prop} {held reserved : ℕ}
    {cause : Rejection} (hholds : condition → ∃ q, action.run.run p = (.ok (), q))
    (hleaves : ∀ q, action.run.run p = (.ok (), q) → q.held.val = held ∧ q.reserved.val = reserved)
    (hfails : ¬ condition → action.run.run p = (.error cause, p)) :
    Decided action p condition held reserved cause := by
  refine ⟨⟨?_, hholds⟩, hleaves, hfails⟩
  rintro ⟨q, hrun⟩
  by_contra hnot
  cases hrun.symm.trans (hfails hnot)

/-- **A deposit into a solvent pool** goes in if its commission is not greater than itself and the
sum of what is held is in range. -/
theorem decided_deposit (hp : p.Solvent) (a c : Amount) :
    (deposit a c).Decided p (c ≤ a ∧ p.held.val + a.val < Amount.size)
      (p.held.val + a.val) (p.reserved.val + c.val)
      (if a < c then .commissionGreaterThanAmount c a else .overflow (.sum p.held a)) := by
  refine .of_cases (fun ⟨hle, hsum⟩ => exists_run_deposit hp hle hsum) (fun q hrun => ?_) ?_
  · obtain ⟨-, hheld, hreserved, -⟩ := deposit_eq_ok.mp hrun
    exact ⟨hheld, hreserved⟩
  · intro hnot
    by_cases hlt : a < c
    · rw [if_pos hlt]
      exact run_deposit_of_lt hlt
    · have hle : c ≤ a := Nat.le_of_not_lt hlt
      rw [if_neg hlt]
      exact run_deposit_of_size_le hle (Nat.le_of_not_lt fun hsum => hnot ⟨hle, hsum⟩)

/-- **A release from a solvent pool** goes out if no more is asked for than is held apart from the
reserve. -/
theorem decided_release (hp : p.Solvent) (a : Amount) :
    (release a).Decided p (a.val ≤ p.held.val - p.reserved.val)
      (p.held.val - a.val) p.reserved.val (.amountExceedBridgePool a p.bridgeable) := by
  refine .of_cases (exists_run_release hp) (fun q hrun => ?_) fun hnot => ?_
  · obtain ⟨hheld, hreserved, -⟩ := release_eq_ok.mp hrun
    exact ⟨Nat.eq_sub_of_add_eq hheld, congrArg Amount.val hreserved⟩
  · exact run_release_of_lt (Nat.lt_of_not_le hnot)

/-- **A withdrawal from a solvent pool** goes out if no more is asked for than is reserved. -/
theorem decided_withdraw (hp : p.Solvent) (a : Amount) :
    (withdraw a).Decided p (a ≤ p.reserved)
      (p.held.val - a.val) (p.reserved.val - a.val)
      (.amountExceedCommissionPool a p.reserved) := by
  refine .of_cases (exists_run_withdraw hp) (fun q hrun => ?_) fun hnot => ?_
  · obtain ⟨hheld, hreserved, -⟩ := withdraw_eq_ok.mp hrun
    exact ⟨Nat.eq_sub_of_add_eq hheld, Nat.eq_sub_of_add_eq hreserved⟩
  · exact run_withdraw_of_lt (Nat.lt_of_not_le hnot)

/-- What is decided fails in one way only. -/
theorem Decided.eq_of_error {action : PoolAction Unit} {condition : Prop} {held reserved : ℕ}
    {cause : Rejection} (hdecided : Decided action p condition held reserved cause)
    (h : action.run.run p = (.error e, q)) : q = p ∧ e = cause := by
  by_cases hcondition : condition
  · obtain ⟨q', hrun⟩ := hdecided.succeeds_iff.mpr hcondition
    cases hrun.symm.trans h
  · cases (hdecided.refused hcondition).symm.trans h
    exact ⟨rfl, rfl⟩

/-- A deposit into a solvent pool is refused for its commission or for a sum out of range. -/
theorem deposit_eq_error (hp : p.Solvent) (h : (deposit a c).run.run p = (.error e, q)) :
    q = p ∧ (e = .commissionGreaterThanAmount c a ∨ e = .overflow (.sum p.held a)) := by
  obtain ⟨hq, he⟩ := (decided_deposit hp a c).eq_of_error h
  by_cases hlt : a < c
  · exact ⟨hq, .inl (he.trans (if_pos hlt))⟩
  · exact ⟨hq, .inr (he.trans (if_neg hlt))⟩

/-- A release from a solvent pool is refused only for more than is bridgeable. -/
theorem release_eq_error (hp : p.Solvent) (h : (release a).run.run p = (.error e, q)) :
    q = p ∧ e = .amountExceedBridgePool a p.bridgeable :=
  (decided_release hp a).eq_of_error h

/-- A withdrawal from a solvent pool is refused only for more than is reserved. -/
theorem withdraw_eq_error (hp : p.Solvent) (h : (withdraw a).run.run p = (.error e, q)) :
    q = p ∧ e = .amountExceedCommissionPool a p.reserved :=
  (decided_withdraw hp a).eq_of_error h

/-- An operation that succeeds leaves a solvent pool, whatever pool it has found. -/
theorem solvent_of_perform {step : PoolStep} (h : step.perform p = (.ok (), q)) : q.Solvent := by
  cases step with
  | deposit amount commission => exact (deposit_eq_ok.mp h).2.2.2
  | release amount => exact (release_eq_ok.mp h).2.2
  | withdraw amount => exact (withdraw_eq_ok.mp h).2.2
  | check =>
    have hcheck : (p.checkSolvent, p) = (.ok (), q) := run_check.symm.trans h
    obtain ⟨hsolvent, rfl⟩ := Prod.mk.inj hcheck
    exact Pool.checkSolvent_eq_ok.mp hsolvent

/-- A pool of which more is reserved than held lets nothing out. -/
theorem solvent_of_release (h : (release a).run.run p = (.ok (), q)) : p.Solvent := by
  obtain ⟨hheld, hreserved, hsolvent⟩ := release_eq_ok.mp h
  have hq : q.reserved.val ≤ q.held.val := hsolvent
  rw [hreserved] at hq
  exact hq.trans (by omega)

/-- Neither does it let commission out, since both sides lose the same. -/
theorem solvent_of_withdraw (h : (withdraw a).run.run p = (.ok (), q)) : p.Solvent := by
  obtain ⟨hheld, hreserved, hsolvent⟩ := withdraw_eq_ok.mp h
  have hq : q.reserved.val ≤ q.held.val := hsolvent
  have hp : p.reserved.val ≤ p.held.val := by omega
  exact hp

/-- **The operations on a pool are exact and atomic.** On a solvent pool, each operation is decided
by an exact condition on the amounts: what it leaves are exact sums and differences, and a refusal
tells the amounts of the pool and changes nothing. In particular, no difference is out of range
there, and the check at the end of an operation never fails. From a pool of which more is reserved
than held, nothing is released and nothing withdrawn; and from any pool, an operation that succeeds
leaves a solvent one. -/
theorem exact_and_atomic (p : Pool) (a c : Amount) :
    (p.Solvent →
      (deposit a c).Decided p (c ≤ a ∧ p.held.val + a.val < Amount.size)
          (p.held.val + a.val) (p.reserved.val + c.val)
          (if a < c then .commissionGreaterThanAmount c a else .overflow (.sum p.held a)) ∧
        (release a).Decided p (a.val ≤ p.held.val - p.reserved.val)
          (p.held.val - a.val) p.reserved.val
          (.amountExceedBridgePool a (p.held.excess p.reserved)) ∧
        (withdraw a).Decided p (a ≤ p.reserved)
          (p.held.val - a.val) (p.reserved.val - a.val)
          (.amountExceedCommissionPool a p.reserved)) ∧
      (p.held < p.reserved → ∀ q, (release a).run.run p ≠ (.ok (), q) ∧
        (withdraw a).run.run p ≠ (.ok (), q)) ∧
      ∀ (step : PoolStep) (q : Pool), step.perform p = (.ok (), q) → q.Solvent := by
  refine ⟨fun hp => ⟨decided_deposit hp a c, decided_release hp a, decided_withdraw hp a⟩,
    fun hlt q => ?_, fun step q => solvent_of_perform⟩
  have hp : ¬ p.Solvent := Nat.not_le.mpr hlt
  exact ⟨fun hrun => hp (solvent_of_release hrun), fun hrun => hp (solvent_of_withdraw hrun)⟩

/-- A pool that holds as much as can be held, three units of it reserved: it takes nothing in, lets
out what is not reserved and not a unit more. With four more units reserved than held, it lets out
nothing at all. -/
theorem exact_and_atomic_of_full :
    let most : Amount := ⟨Amount.size - 1, by decide⟩
    let full : Pool := ⟨most, ⟨3, by decide⟩⟩
    let broken : Pool := ⟨⟨3, by decide⟩, ⟨7, by decide⟩⟩
    full.Solvent ∧ broken.held < broken.reserved ∧
      (deposit ⟨1, by decide⟩ 0).run.run full =
        (.error (.overflow (.sum most ⟨1, by decide⟩)), full) ∧
      (∃ q, (release ⟨Amount.size - 4, by decide⟩).run.run full = (.ok (), q) ∧
        q.held.val = 3 ∧ q.reserved.val = 3) ∧
      (release ⟨Amount.size - 3, by decide⟩).run.run full =
        (.error (.amountExceedBridgePool ⟨Amount.size - 3, by decide⟩
          ⟨Amount.size - 4, by decide⟩), full) ∧
      ∀ q, (withdraw 0).run.run broken ≠ (.ok (), q) := by
  intro most full broken
  have hfull : full.Solvent := by decide
  have hbroken : broken.held < broken.reserved := by decide
  obtain ⟨hdeposit, -, -⟩ := (exact_and_atomic full ⟨1, by decide⟩ 0).1 hfull
  obtain ⟨-, hrelease, -⟩ := (exact_and_atomic full ⟨Amount.size - 4, by decide⟩ 0).1 hfull
  obtain ⟨-, hmore, -⟩ := (exact_and_atomic full ⟨Amount.size - 3, by decide⟩ 0).1 hfull
  obtain ⟨q, hrun⟩ := hrelease.succeeds_iff.mpr (by decide)
  obtain ⟨hheld, hreserved⟩ := hrelease.leaves q hrun
  exact ⟨hfull, hbroken, hdeposit.refused (by decide),
    ⟨q, hrun, hheld.trans (by decide), hreserved⟩, hmore.refused (by decide),
    fun q => ((exact_and_atomic broken 0 0).2.1 hbroken q).2⟩

end PoolAction

end TokenCustody
