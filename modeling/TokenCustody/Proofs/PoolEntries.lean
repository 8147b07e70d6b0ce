import TokenCustody.Proofs.Custody

/-!
# Which pools have an entry

A token is known to the books once there is an entry for its pool (`Store.HasPool`); the pool of any
other token reads as empty. All four kinds of postings read the pool, whether it has an entry or
not, and write it back, so each of them would make an entry if it succeeded on an empty pool. A
release never does: its amount must not be zero, and nothing is there to be released. A deposit
does, and so does a withdrawal of zero units, which the owner may make of any token
(`Posting.deposit_or_zero_of_empty`).

So the entries that a run leaves are those of the tokens that it has taken a deposit of, and those
of the tokens that it has withdrawn zero units of (`Call.hasPool_run`). The pool of a token without
a deposit is empty, with or without an entry, and no entry is ever taken away
(`Call.pools_opened_by`).
-/

namespace TokenCustody

variable {recover : Recovery} {context : Context} {sender token : String} {s t : Store}

/-! ### Entries -/

namespace Store

/-- There is an entry for the pool of a token. -/
def HasPool (s : Store) (token : String) : Prop :=
  (Key.pool token).bytes ∈ s

theorem not_hasPool_empty : ¬ (∅ : Store).HasPool token :=
  Std.ExtTreeMap.not_mem_empty

theorem hasPool_save {α : Type} [Codec α] {slot : Slot α} {a : α} :
    (s.save slot a).HasPool token ↔ slot.key = .pool token ∨ s.HasPool token := by
  rw [HasPool, HasPool, save, Std.ExtTreeMap.mem_insert, Std.compare_eq_iff_eq,
    Key.bytes_injective.eq_iff]

/-- A pool has an entry exactly if something is loaded, or cannot be. -/
theorem hasPool_iff : s.HasPool token ↔ s.load? (.pool token) ≠ .ok none := by
  rw [HasPool, Std.ExtTreeMap.mem_iff_isSome_getElem?, load?, Slot.key_pool]
  cases s[(Key.pool token).bytes]? with
  | none => simp
  | some text =>
    refine iff_of_true rfl ?_
    cases hread : ((Slot.pool token).schema.read text : Except HostError Pool) <;>
      simp [hread, Except.map]

/-- Without an entry, a pool is empty. -/
theorem pool_of_not_hasPool (h : ¬ s.HasPool token) : s.pool token = .ok .empty := by
  rw [hasPool_iff, not_not] at h
  rw [pool, h]
  rfl

theorem SameBooks.hasPool_iff (h : s.SameBooks t) : t.HasPool token ↔ s.HasPool token := by
  rw [Store.hasPool_iff, Store.hasPool_iff, h.load?_pool]

end Store

/-! ### Postings -/

namespace PoolAction

variable {a : Amount} {q : Pool}

theorem eq_zero_of_release_empty (h : (release a).run.run .empty = (.ok (), q)) : a = 0 := by
  obtain ⟨hheld, -, -⟩ := release_eq_ok.mp h
  exact Amount.ext (Nat.eq_zero_of_add_eq_zero_left hheld)

theorem eq_zero_of_withdraw_empty (h : (withdraw a).run.run .empty = (.ok (), q)) : a = 0 := by
  obtain ⟨-, hreserved, -⟩ := withdraw_eq_ok.mp h
  exact Amount.ext (Nat.eq_zero_of_add_eq_zero_left hreserved)

end PoolAction

namespace Posting

variable {p : Posting} {r : Response}

theorem hasPool_write {q : Pool} :
    (p.write s q).HasPool token ↔ p.token = token ∨ s.HasPool token := by
  have hpool : (s.save (.pool p.token) q).HasPool token ↔ p.token = token ∨ s.HasPool token := by
    rw [Store.hasPool_save, Slot.key_pool, Key.pool.injEq]
  rw [write]
  split
  · rw [Store.hasPool_save, Slot.key_nonce, hpool]
    simp
  · exact hpool

/-- **What succeeds on an empty pool** is a deposit, or a withdrawal of zero units. -/
theorem deposit_or_zero_of_empty (h : (p.handle recover context sender).run.run s = (.ok r, t))
    (hempty : s.pool p.token = .ok .empty) :
    (∃ d, p = .deposit d) ∨ p = .withdrawal p.token 0 := by
  cases p with
  | deposit d => exact .inl ⟨d, rfl⟩
  | settlement q =>
    obtain ⟨_, before, _, -, -, -, -, hamount, hbefore, hrun, -, -⟩ := Release.settle_eq_ok.mp h
    obtain rfl : .empty = before := Except.ok.inj (hempty.symm.trans hbefore)
    exact absurd (PoolAction.eq_zero_of_release_empty hrun) hamount
  | release q =>
    obtain ⟨_, before, _, -, hq, -, -, hbefore, hrun, -, -⟩ := Release.present_eq_ok.mp h
    obtain rfl : .empty = before := Except.ok.inj (hempty.symm.trans hbefore)
    exact absurd (PoolAction.eq_zero_of_release_empty hrun) hq.amount_ne
  | withdrawal token amount =>
    obtain ⟨_, before, _, -, -, -, hbefore, hrun, -, -⟩ := Release.withdrawCommission_eq_ok.mp h
    obtain rfl : .empty = before := Except.ok.inj (hempty.symm.trans hbefore)
    obtain rfl : amount = 0 := PoolAction.eq_zero_of_withdraw_empty hrun
    exact .inr rfl

end Posting

/-! ### Turns -/

namespace Turn

/-- The call has taken a deposit of a token. -/
def Deposits (token : String) (turn : Turn) : Prop :=
  ∃ d, turn.posted? = some (.deposit d) ∧ d.token = token

/-- The call has withdrawn commission on a token, of zero units. -/
def WithdrawsZero (token : String) (turn : Turn) : Prop :=
  turn.posted? = some (.withdrawal token 0)

variable {turn : Turn}

theorem exists_token_eq (h : turn.Deposits token ∨ turn.WithdrawsZero token) :
    ∃ p, turn.posted? = some p ∧ p.token = token := by
  rcases h with ⟨d, h, rfl⟩ | h
  · exact ⟨.deposit d, h, rfl⟩
  · exact ⟨.withdrawal token 0, h, rfl⟩

/-- Without a deposit, a turn has booked neither a deposited amount nor a commission on one. -/
theorem booked_of_not_deposits (h : ¬ turn.Deposits token) :
    turn.booked token Posting.deposited = 0 ∧ turn.charged token = 0 := by
  rw [charged, booked, booked]
  cases hp : turn.posted? with
  | none => exact ⟨rfl, rfl⟩
  | some p =>
    cases p with
    | deposit d =>
      have htoken : d.token ≠ token := fun htoken => h ⟨d, hp, htoken⟩
      exact ⟨if_neg htoken, if_neg htoken⟩
    | settlement | release | withdrawal => exact ⟨ite_self 0, ite_self 0⟩

/-- Where no turn has a figure, a history has none. -/
theorem total_eq_zero {figure : Turn → ℕ} {turns : List Turn}
    (h : ∀ turn ∈ turns, figure turn = 0) : total figure turns = 0 := by
  induction turns with
  | nil => rfl
  | cons turn turns ih =>
    obtain ⟨hturn, hrest⟩ := List.forall_mem_cons.mp h
    rw [total_cons, hturn, ih hrest]

end Turn

/-! ### Calls and runs -/

namespace Call

/-- **What a call does to the entries**: it makes one if it takes a deposit or withdraws zero units,
and takes none away. -/
theorem hasPool_perform (recover : Recovery) (call : Call) (s : Store) (token : String) :
    (call.perform recover s).2.HasPool token ↔ s.HasPool token ∨
      (call.turn recover s).Deposits token ∨ (call.turn recover s).WithdrawsZero token := by
  rcases turn_cases recover call s with
    ⟨hnone, hbooks, -⟩ | ⟨p, context, config, before, after, hp, hb⟩
  · rw [hbooks.hasPool_iff, or_iff_left]
    intro hopens
    obtain ⟨p, hp, -⟩ := Turn.exists_token_eq hopens
    cases hnone.symm.trans hp
  rw [hb.store_eq, Posting.hasPool_write]
  constructor
  · rintro (rfl | hs)
    · refine or_iff_not_imp_left.mpr fun hs => ?_
      obtain ⟨context, sender, r, t, hrun⟩ := exists_run_of_posted hp
      rcases Posting.deposit_or_zero_of_empty hrun (Store.pool_of_not_hasPool hs) with
        ⟨d, rfl⟩ | hzero
      · exact .inl ⟨d, hp, rfl⟩
      · exact .inr (hp.trans (congrArg some hzero))
    · exact .inl hs
  · rintro (hs | hopens)
    · exact .inr hs
    · obtain ⟨p', hp', htoken⟩ := Turn.exists_token_eq hopens
      obtain rfl := Option.some.inj (hp.symm.trans hp')
      exact .inl htoken

/-- **The entries that a run leaves** are those that it has found, and those that it has made. -/
theorem hasPool_run (recover : Recovery) (calls : List Call) (s : Store) (token : String) :
    (run recover calls s).HasPool token ↔ s.HasPool token ∨
      ∃ turn ∈ history recover calls s, turn.Deposits token ∨ turn.WithdrawsZero token := by
  induction calls generalizing s with
  | nil => simp [history]
  | cons call calls ih =>
    rw [run_cons, ih, hasPool_perform, history, or_assoc]
    simp only [List.mem_cons, or_and_right, exists_or, exists_eq_left]

/-- A run that takes no deposit of a token leaves an empty pool as it is. -/
theorem pool_run_of_no_deposit {calls : List Call} (hempty : s.pool token = .ok .empty)
    (h : ∀ turn ∈ history recover calls s, ¬ turn.Deposits token) :
    (run recover calls s).pool token = .ok .empty := by
  obtain ⟨pool, hpool, -, hheld, hreserved⟩ :=
    exists_pool_run recover calls hempty Pool.solvent_empty
  have hdeposited :
      Turn.total (·.booked token Posting.deposited) (history recover calls s) = 0 :=
    Turn.total_eq_zero fun turn hturn => (Turn.booked_of_not_deposits (h turn hturn)).1
  have hcharged : Turn.total (Turn.charged token) (history recover calls s) = 0 :=
    Turn.total_eq_zero fun turn hturn => (Turn.booked_of_not_deposits (h turn hturn)).2
  -- all sums of the custody equations are zero but what comes in, and this is zero as well
  have hheld₀ : pool.held.val = 0 := by
    have : Pool.empty.held.val = 0 := rfl
    omega
  have hreserved₀ : pool.reserved.val = 0 := by
    have : Pool.empty.reserved.val = 0 := rfl
    omega
  obtain rfl : pool = .empty := Pool.ext hheld₀ hreserved₀
  exact hpool

/-- **Pools are opened by deposits, and by withdrawals of zero units.** After every run from the
empty store, a token has an entry for its pool exactly if the run has taken a deposit of it, or has
withdrawn zero units of commission on it; without a deposit the pool is empty in any case; and an
entry stays whatever calls follow. -/
theorem pools_opened_by (recover : Recovery) (calls : List Call) (token : String) :
    let s := run recover calls ∅
    let turns := history recover calls ∅
    (s.HasPool token ↔ ∃ turn ∈ turns, turn.Deposits token ∨ turn.WithdrawsZero token) ∧
      ((∀ turn ∈ turns, ¬ turn.Deposits token) → s.pool token = .ok .empty) ∧
      ∀ more, s.HasPool token → (run recover more s).HasPool token := by
  intro s turns
  refine ⟨?_, ?_, ?_⟩
  · rw [hasPool_run, or_iff_right Store.not_hasPool_empty]
  · exact pool_run_of_no_deposit (Store.pool_empty token)
  · exact fun more hs => (hasPool_run recover more s token).mpr (.inl hs)

/-- The owner withdraws zero units of a token that nobody has ever deposited, and there is an entry
for its pool. -/
theorem pool_opened_without_deposit :
    let context : Context := ⟨0, "network", "bridge"⟩
    let signer : EthAddress := Vector.replicate 20 1
    let setup : Instantiation := ⟨none, signer.text, none⟩
    let c : Command := .withdrawCommission "token" 0
    let founding := Call.instantiate context "founder" (writeJson setup)
    let withdrawal := Call.execute context "founder" (writeJson c)
    let calls := [founding, withdrawal]
    let recover := Signature.recovery
    (run recover calls ∅).HasPool "token" ∧
      ∀ turn ∈ history recover calls ∅, ¬ turn.Deposits "token" := by
  intro context signer setup c founding withdrawal calls recover
  let founded := run recover [founding] ∅
  obtain ⟨hconfig, hbooks⟩ :
      founded.config = .ok ⟨"founder", signer.toList, 400, false⟩ ∧ (∅ : Store).SameBooks founded :=
    run_instantiation rfl (by decide +kernel) (by decide)
  have hempty : founded.pool "token" = .ok .empty := hbooks.pool_of_empty "token"
  have hread : Schema.command.read (writeJson c) = .ok c := Schema.read_writeJson _ c
  have hperform : withdrawal.perform recover founded =
      (.ok _, founded.save (.pool "token") .empty) :=
    perform_eq_ok.mpr (Handler.host_bind_eq_ok.mpr ⟨c, hread,
      Release.withdrawCommission_eq_ok.mpr ⟨_, .empty, .empty, hconfig, rfl, by decide +kernel,
        hempty, PoolAction.withdraw_eq_ok.mpr ⟨rfl, rfl, Pool.solvent_empty⟩, rfl, rfl⟩⟩)
  have hposting : withdrawal.posting? = some (.withdrawal "token" 0) := posting?_of_read hread
  refine ⟨?_, ?_⟩
  · have hrun : run recover calls ∅ = (withdrawal.perform recover founded).2 :=
      run_concat [founding] withdrawal ∅
    rw [hrun, hperform]
    exact Store.hasPool_save.mpr (.inl rfl)
  · rintro turn hturn ⟨d, hd, -⟩
    obtain ⟨call, hcall, s, rfl⟩ := exists_of_mem_history hturn
    -- neither of the two calls asks for a deposit, on whatever store
    have hasked : call.posting? = some (.deposit d) := Turn.posting?_of_posted hd
    rcases List.mem_cons.mp hcall with rfl | hcall
    · cases hasked
    · obtain rfl := List.mem_singleton.mp hcall
      cases hposting.symm.trans hasked

end Call

end TokenCustody
