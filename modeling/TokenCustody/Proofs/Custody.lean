import TokenCustody.Proofs.History

/-!
# Custody is exact

What a pool holds, and what it reserves, is told by the history of the run alone: all that has been
deposited of the token, less what has been released and withdrawn; and all commission charged, at
the percentage that was in force at each deposit, less what has been withdrawn. What is held is also
what the orders to the token contract have brought in, with what it has reported, less what they
have paid out (`Call.custody_exact`).

Each posting balances on its own (`Posting.Booked`), and what it orders is what it books
(`Posting.sum_pulled_add_reported` and `Posting.sum_paid`). The sums over a history follow by
induction on the calls, from any store with a solvent pool (`Call.exists_pool_run`).
-/

namespace TokenCustody

/-! ### What orders move -/

instance : LawfulCodec TokenOrder where
  ofDocument?_toDocument order := by
    cases order <;>
      simp [Codec.toDocument, Codec.ofDocument?, Record.only?, Record.get?, List.lookup_cons]

namespace TokenCall

/-- The order that a call gives, if its message is one. -/
def order? (call : TokenCall) : Option TokenOrder :=
  readJson? call.message

@[simp]
theorem order?_ofOrder (token : String) (order : TokenOrder) :
    (ofOrder token order).order? = some order :=
  readJson?_writeJson order

/-- What a call brings in from somebody's allowance. -/
def pulled (call : TokenCall) : ℕ :=
  match call.order? with
  | some (.transferFrom _ _ amount) => amount.val
  | _ => 0

/-- What a call pays out. -/
def paid (call : TokenCall) : ℕ :=
  match call.order? with
  | some (.transfer _ amount) => amount.val
  | _ => 0

end TokenCall

namespace Posting

/-- The amount of a deposit that the token contract has reported. -/
def reported : Posting → ℕ
  | .deposit d => if d.funding = .received then d.amount.val else 0
  | _ => 0

variable {context : Context} {config : Config}

/-- All orders of a posting go to its token. -/
theorem contract_of_mem_calls {p : Posting} {call : TokenCall}
    (h : call ∈ p.calls context config) : call.contract = p.token := by
  cases p with
  | deposit d =>
    rw [calls, Deposit.calls] at h
    split at h
    · rw [List.mem_singleton.mp h]
      rfl
    · cases h
  | settlement | release | withdrawal =>
    rw [List.mem_singleton.mp h]
    rfl

/-- What is deposited is pulled from the user's allowance, unless it has been reported. -/
theorem sum_pulled_add_reported (p : Posting) :
    ((p.calls context config).map TokenCall.pulled).sum + p.reported = p.deposited := by
  cases p with
  | deposit d =>
    cases hfunding : d.funding <;>
      simp [calls, Deposit.calls, hfunding, TokenCall.pulled, reported, deposited]
  | settlement | release | withdrawal => simp [calls, TokenCall.pulled, reported, deposited]

/-- What is released or withdrawn is paid out. -/
theorem sum_paid (p : Posting) :
    ((p.calls context config).map TokenCall.paid).sum = p.released + p.withdrawn := by
  cases p with
  | deposit d =>
    cases hfunding : d.funding <;>
      simp [calls, Deposit.calls, hfunding, TokenCall.paid, released, withdrawn]
  | settlement | release | withdrawal => simp [calls, TokenCall.paid, released, withdrawn]

end Posting

/-! ### Figures of a history -/

namespace Turn

/-- The stable percentage that the call finds. -/
def percent (turn : Turn) : UInt64 :=
  match turn.before.config with
  | .ok config => config.stablePercent
  | .error _ => 0

/-- A figure of the posting that the call has booked on the pool of a token. -/
def booked (token : String) (figure : Posting → ℕ) (turn : Turn) : ℕ :=
  match turn.posted? with
  | some p => if p.token = token then figure p else 0
  | none => 0

/-- The commission that the call has charged on a deposit. -/
def charged (token : String) (turn : Turn) : ℕ :=
  turn.booked token (Posting.charged turn.percent)

/-- A figure of what the call has ordered from a token contract. -/
def dispatched (token : String) (figure : TokenCall → ℕ) (turn : Turn) : ℕ :=
  ((turn.response.calls.filter (·.contract = token)).map figure).sum

/-- The sum of a figure over a history. -/
def total (figure : Turn → ℕ) (turns : List Turn) : ℕ :=
  (turns.map figure).sum

variable {turn : Turn} {p : Posting} {token : String}

theorem booked_of_none (h : turn.posted? = none) (figure : Posting → ℕ) :
    turn.booked token figure = 0 := by
  rw [booked, h]

theorem booked_of_some (h : turn.posted? = some p) (figure : Posting → ℕ) :
    turn.booked p.token figure = figure p := by
  rw [booked, h]
  exact if_pos rfl

theorem booked_of_ne (h : turn.posted? = some p) (hne : p.token ≠ token)
    (figure : Posting → ℕ) : turn.booked token figure = 0 := by
  rw [booked, h]
  exact if_neg hne

theorem total_cons (figure : Turn → ℕ) (turns : List Turn) :
    total figure (turn :: turns) = figure turn + total figure turns := by
  rw [total, List.map_cons, List.sum_cons]
  rfl

end Turn

namespace Call

open Store (pool_empty)

variable {recover : Recovery} {s : Store} {token : String} {before : Pool}

/-! ### One call -/

/-- **What a call does to a pool** is what it books, and the pool stays solvent. -/
theorem exists_pool_perform (call : Call) (hbefore : s.pool token = .ok before)
    (hsolvent : before.Solvent) :
    ∃ after, (call.perform recover s).2.pool token = .ok after ∧ after.Solvent ∧
      after.held.val + (call.turn recover s).booked token Posting.released +
          (call.turn recover s).booked token Posting.withdrawn =
        before.held.val + (call.turn recover s).booked token Posting.deposited ∧
      after.reserved.val + (call.turn recover s).booked token Posting.withdrawn =
        before.reserved.val + (call.turn recover s).charged token := by
  rw [Turn.charged]
  rcases turn_cases recover call s with
    ⟨hnone, hbooks, -⟩ | ⟨p, context, config, before', after, hp, hb⟩
  -- nothing booked: the pool is as it was, and all figures are zero
  · refine ⟨before, (hbooks.pool_eq token).trans hbefore, hsolvent, ?_⟩
    simp only [Turn.booked_of_none hnone, add_zero, and_self]
  rw [hb.store_eq]
  by_cases htoken : p.token = token
  · subst htoken
    obtain rfl := Except.ok.inj (hb.before_eq.symm.trans hbefore)
    -- the percentage of the turn is the one that the posting was charged at
    have hpercent : (call.turn recover s).percent = config.stablePercent := by
      rw [Turn.percent, turn, hb.config_eq]
    refine ⟨after, p.pool_write s after, hb.solvent, ?_⟩
    simp only [Turn.booked_of_some hp, hpercent]
    exact ⟨hb.held_eq, hb.reserved_eq⟩
  · refine ⟨before, (Posting.pool_write_of_ne htoken s after).trans hbefore, hsolvent, ?_⟩
    simp only [Turn.booked_of_ne hp htoken, add_zero, and_self]

/-- What a call orders from a token contract is what it books on the pool of the token. -/
theorem dispatched_turn (recover : Recovery) (call : Call) (s : Store) (token : String) :
    (call.turn recover s).dispatched token TokenCall.pulled +
        (call.turn recover s).booked token Posting.reported =
      (call.turn recover s).booked token Posting.deposited ∧
    (call.turn recover s).dispatched token TokenCall.paid =
      (call.turn recover s).booked token Posting.released +
        (call.turn recover s).booked token Posting.withdrawn := by
  rw [Turn.dispatched, Turn.dispatched]
  rcases turn_cases recover call s with
    ⟨hnone, -, hcalls, -⟩ | ⟨p, context, config, before, after, hp, hb⟩
  · simp only [Turn.booked_of_none hnone, hcalls, List.filter_nil, List.map_nil, List.sum_nil,
      add_zero, and_self]
  rw [hb.calls_eq]
  by_cases htoken : p.token = token
  · subst htoken
    have hall : (p.calls context config).filter (·.contract = p.token) = p.calls context config :=
      List.filter_eq_self.mpr fun c hc => decide_eq_true (Posting.contract_of_mem_calls hc)
    simp only [Turn.booked_of_some hp, hall]
    exact ⟨p.sum_pulled_add_reported, p.sum_paid⟩
  · have hnone : (p.calls context config).filter (·.contract = token) = [] :=
      List.filter_eq_nil_iff.mpr fun c hc h =>
        htoken ((Posting.contract_of_mem_calls hc).symm.trans (of_decide_eq_true h))
    simp only [Turn.booked_of_ne hp htoken, hnone, List.map_nil, List.sum_nil, add_zero, and_self]

/-! ### Runs -/

/-- What a run does to a pool is the sum of what its calls book. -/
theorem exists_pool_run (recover : Recovery) (calls : List Call)
    (hbefore : s.pool token = .ok before) (hsolvent : before.Solvent) :
    ∃ after, (run recover calls s).pool token = .ok after ∧ after.Solvent ∧
      after.held.val + Turn.total (·.booked token Posting.released) (history recover calls s) +
          Turn.total (·.booked token Posting.withdrawn) (history recover calls s) =
        before.held.val +
          Turn.total (·.booked token Posting.deposited) (history recover calls s) ∧
      after.reserved.val +
          Turn.total (·.booked token Posting.withdrawn) (history recover calls s) =
        before.reserved.val + Turn.total (Turn.charged token) (history recover calls s) := by
  induction calls generalizing s before with
  | nil => exact ⟨before, hbefore, hsolvent, rfl, rfl⟩
  | cons call calls ih =>
    obtain ⟨middle, hmiddle, hsolvent', hheld, hreserved⟩ :=
      exists_pool_perform call hbefore hsolvent
    obtain ⟨after, hafter, hsolvent'', hheld', hreserved'⟩ := ih hmiddle hsolvent'
    refine ⟨after, hafter, hsolvent'', ?_, ?_⟩
    · simp only [history, Turn.total_cons]
      omega
    · simp only [history, Turn.total_cons]
      omega

/-- What a run orders from a token contract is what it books on the pool of the token. -/
theorem dispatched_history (recover : Recovery) (calls : List Call) (s : Store)
    (token : String) :
    Turn.total (Turn.dispatched token TokenCall.pulled) (history recover calls s) +
        Turn.total (·.booked token Posting.reported) (history recover calls s) =
      Turn.total (·.booked token Posting.deposited) (history recover calls s) ∧
    Turn.total (Turn.dispatched token TokenCall.paid) (history recover calls s) =
      Turn.total (·.booked token Posting.released) (history recover calls s) +
        Turn.total (·.booked token Posting.withdrawn) (history recover calls s) := by
  induction calls generalizing s with
  | nil => exact ⟨rfl, rfl⟩
  | cons call calls ih =>
    obtain ⟨hin, hout⟩ := dispatched_turn recover call s token
    obtain ⟨hin', hout'⟩ := ih (call.perform recover s).2
    simp only [history, Turn.total_cons]
    omega

/-- **Custody is exact.** After every run from the empty store, in exact integers: a pool holds what
has been deposited less what has been released and withdrawn, and reserves what has been charged
less what has been withdrawn; it holds what has been pulled and reported less what has been paid
out. So no more is ever released than has been deposited net of commission, and no more is withdrawn
than has been charged. -/
theorem custody_exact (recover : Recovery) (calls : List Call) (token : String) :
    let sum (figure : Turn → ℕ) : ℤ := Turn.total figure (history recover calls ∅)
    let deposits := sum (·.booked token Posting.deposited)
    let commissions := sum (Turn.charged token)
    let releases := sum (·.booked token Posting.released)
    let withdrawals := sum (·.booked token Posting.withdrawn)
    let pulled := sum (Turn.dispatched token TokenCall.pulled)
    let reported := sum (·.booked token Posting.reported)
    let paid := sum (Turn.dispatched token TokenCall.paid)
    ∃ pool, (run recover calls ∅).pool token = .ok pool ∧
      pool.held.val = deposits - releases - withdrawals ∧
      pool.reserved.val = commissions - withdrawals ∧
      pool.held.val = pulled + reported - paid ∧
      releases ≤ deposits - commissions ∧ withdrawals ≤ commissions := by
  obtain ⟨pool, hpool, hsolvent, hheld, hreserved⟩ :=
    exists_pool_run recover calls (pool_empty token) Pool.solvent_empty
  obtain ⟨hin, hout⟩ := dispatched_history recover calls ∅ token
  have hheld₀ : Pool.empty.held.val = 0 := rfl
  have hreserved₀ : Pool.empty.reserved.val = 0 := rfl
  have hle : pool.reserved.val ≤ pool.held.val := hsolvent
  refine ⟨pool, hpool, ?_⟩
  -- the two bounds are the solvency of the pool, and that its reserve is not below zero
  dsimp only
  omega

end Call

end TokenCustody
