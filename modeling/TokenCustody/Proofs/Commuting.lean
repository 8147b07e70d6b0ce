import TokenCustody.Proofs.Isolation

/-!
# Deposits commute

Deposits with different nonces do not get in each other's way. If each of them would be booked on
its own, and there is room for all of them together in the pools of their tokens, then they are
booked in any order, each at the commission that it would be charged on its own, and the store that
they leave does not depend on the order (`Call.deposits_commute`).

Whether a deposit is booked is settled by the settings, the time and the signature, which no deposit
changes (`Call.Entitled`), and by its nonce and the room in its pool. What the rest of a list needs
of the store is the invariant `Compatible`; a deposit in front takes up its own nonce and its own
room, and leaves the invariant to the rest (`Compatible.tail`). Two deposits in a row leave the same
store in both orders (`Compatible.perform_perform`), and every order is reached by such swaps.
-/

namespace TokenCustody

/-! ### Two deposits in a row -/

namespace Deposit

variable {d e : Deposit}

/-- Two deposits in a row write their pools and then their marks. -/
theorem write_write (d e : Deposit) (s : Store) (q q' : Pool) :
    (Posting.deposit e).write ((Posting.deposit d).write s q) q' =
      (((s.save (.pool d.token) q).save (.pool e.token) q').save
        (.nonce d.consent.terms.nonce) true).save (.nonce e.consent.terms.nonce) true :=
  congrArg (·.save (.nonce e.consent.terms.nonce) true)
    (Store.save_comm (s.save (.pool d.token) q) (by simp) true q')

variable (hnonce : d.consent.terms.nonce ≠ e.consent.terms.nonce)

include hnonce

/-- Deposits into the pools of two tokens are written in either order. -/
theorem write_comm (htoken : d.token ≠ e.token) (s : Store) (q q' : Pool) :
    (Posting.deposit e).write ((Posting.deposit d).write s q) q' =
      (Posting.deposit d).write ((Posting.deposit e).write s q') q := by
  have hpools : (Slot.pool d.token).key ≠ (Slot.pool e.token).key := by simpa using htoken
  have hmarks : (Slot.nonce d.consent.terms.nonce).key ≠
      (Slot.nonce e.consent.terms.nonce).key := by simpa using hnonce
  rw [write_write, write_write, Store.save_comm _ hpools, Store.save_comm _ hmarks]

/-- Deposits into one pool are written in either order, if the pool ends up the same. -/
theorem write_comm_of_token_eq (htoken : d.token = e.token) (s : Store) (q q' p : Pool) :
    (Posting.deposit e).write ((Posting.deposit d).write s q) p =
      (Posting.deposit d).write ((Posting.deposit e).write s q') p := by
  have hmarks : (Slot.nonce d.consent.terms.nonce).key ≠
      (Slot.nonce e.consent.terms.nonce).key := by simpa using hnonce
  rw [write_write, write_write, htoken, Store.save_save, Store.save_save,
    Store.save_comm _ hmarks]

end Deposit

variable {recover : Recovery} {context : Context} {sender : String} {s t : Store} {r : Response}
variable {config : Config} {d : Deposit} {commission : Amount}

/-! ### Calls that deposit -/

/-- The commands that deposit: a user's own, and the report of a token contract. -/
def Command.IsDeposit : Command → Prop
  | .bridgeIn _ | .receive _ => True
  | _ => False

theorem Command.exists_deposit_of_eq_ok {c : Command} (hc : c.IsDeposit)
    (h : (c.handle recover context sender).run.run s = (.ok r, t)) :
    ∃ d, c.posting? sender = some (.deposit d) := by
  cases c with
  | bridgeIn request => exact ⟨_, rfl⟩
  | receive notice =>
    obtain ⟨d, hd, -⟩ := Handler.host_bind_eq_ok.mp h
    exact ⟨d, posting?_receive hd⟩
  | _ => exact hc.elim

namespace Call

variable {call : Call}

/-- The message of a call is a command that deposits. -/
def IsDeposit : Call → Prop
  | .execute _ _ message => ∃ c : Command, Schema.command.read message = .ok c ∧ c.IsDeposit
  | .instantiate .. | .migrate .. => False

/-- What a call asks to deposit of a token. -/
def deposited (token : String) (call : Call) : ℕ :=
  match call.posting? with
  | some p => if p.token = token then p.deposited else 0
  | none => 0

theorem deposited_of_posting (h : call.posting? = some (.deposit d)) (token : String) :
    call.deposited token = if d.token = token then d.amount.val else 0 := by
  rw [deposited, h]
  rfl

theorem deposited_le_of_posting (h : call.posting? = some (.deposit d)) (token : String) :
    call.deposited token ≤ d.amount.val := by
  rw [deposited_of_posting h]
  split_ifs
  · exact Nat.le_refl _
  · exact Nat.zero_le _

/-- A call asks for a deposit that the bridge takes under given settings, at a commission, as far as
the request itself, the time and the signature go. -/
structure Entitled (recover : Recovery) (config : Config) (call : Call) (context : Context)
    (d : Deposit) (commission : Amount) : Prop where
  run_handle : ∀ s, (call.handle recover).run.run s = (d.book recover context).run.run s
  posting_eq : call.posting? = some (.deposit d)
  nonce_eq : call.nonce? = some d.consent.terms.nonce
  admissible : d.Admissible context config
  signed : config.Signed recover (d.authorization context).signedDigest d.consent.signature
  total_eq : Commission.total d.amount d.consent.terms.gasCommission config.stablePercent =
    .ok commission

/-- A call that deposits and succeeds is entitled to it, and its nonce was unused. -/
theorem exists_entitled (hconfig : s.config = .ok config) (hcall : call.IsDeposit)
    (hok : (call.perform recover s).1.isOk = true) :
    ∃ context d commission, call.Entitled recover config context d commission ∧
      s.isUsed d.consent.terms.nonce = .ok false := by
  cases call with
  | instantiate | migrate => exact hcall.elim
  | execute context sender message =>
    obtain ⟨c, hread, hc⟩ := hcall
    obtain ⟨r, t, -, hrun⟩ := exists_run_of_isOk hok
    rw [run_handle_of_read hread] at hrun
    obtain ⟨d, hd⟩ := Command.exists_deposit_of_eq_ok hc hrun
    have hposting : (Call.execute context sender message).posting? = some (.deposit d) :=
      (posting?_of_read hread).trans hd
    rw [Command.run_handle_of_posting hd] at hrun
    obtain ⟨config', commission, _, _, hconfig', hadmissible, hunused, hsigned, htotal, -⟩ :=
      Deposit.book_eq_ok.mp hrun
    obtain rfl : config' = config := Except.ok.inj (hconfig'.symm.trans hconfig)
    refine ⟨context, d, commission, ?_, hunused⟩
    exact {
      run_handle := fun s => run_handle_of_posting hposting
      posting_eq := hposting
      nonce_eq := (nonce?_of_read hread).trans (Command.nonce?_of_posting hd)
      admissible := hadmissible
      signed := hsigned
      total_eq := htotal }

namespace Entitled

variable {p : Pool} {token : String}

theorem deposited_eq (h : call.Entitled recover config context d commission) :
    call.deposited d.token = d.amount.val :=
  (deposited_of_posting h.posting_eq d.token).trans (if_pos rfl)

theorem deposited_of_ne (h : call.Entitled recover config context d commission)
    (hne : d.token ≠ token) : call.deposited token = 0 :=
  (deposited_of_posting h.posting_eq token).trans (if_neg hne)

/-- **An entitled call is booked** if its nonce is unused and its pool has room. -/
theorem exists_perform (h : call.Entitled recover config context d commission)
    (hconfig : s.config = .ok config) (hunused : s.isUsed d.consent.terms.nonce = .ok false)
    (hp : s.pool d.token = .ok p) (hsolvent : p.Solvent)
    (hroom : p.held.val + d.amount.val < Amount.size) :
    ∃ q, q.held.val = p.held.val + d.amount.val ∧
      q.reserved.val = p.reserved.val + commission.val ∧ q.Solvent ∧
      call.perform recover s =
        (.ok (d.response context d.consent.terms.nonce config.stablePercent commission),
          (Posting.deposit d).write s q) := by
  obtain ⟨-, hle⟩ := Commission.total_eq_ok.mp h.total_eq
  obtain ⟨q, hq⟩ := PoolAction.exists_run_deposit hsolvent hle hroom
  obtain ⟨-, hheld, hreserved, hafter⟩ := PoolAction.deposit_eq_ok.mp hq
  refine ⟨q, hheld, hreserved, hafter, perform_eq_ok.mpr ((h.run_handle s).trans ?_)⟩
  exact Deposit.book_eq_ok.mpr ⟨config, commission, p, q, hconfig, h.admissible, hunused, h.signed,
    h.total_eq, hp, hq, rfl, rfl⟩

end Entitled

end Call

/-! ### Deposits that go together -/

/-- A store takes all deposits of a list of calls: each call is entitled to its own, their nonces
are unused and different, and there is room for them in the pools. -/
structure Compatible (recover : Recovery) (config : Config) (s : Store) (l : List Call) : Prop where
  config_eq : s.config = .ok config
  entitled : ∀ call ∈ l, ∃ context d commission, call.Entitled recover config context d commission
  unused : ∀ n ∈ l.filterMap Call.nonce?, s.isUsed n = .ok false
  nodup : (l.filterMap Call.nonce?).Nodup
  room : ∀ token, ∃ p, s.pool token = .ok p ∧ p.Solvent ∧
    p.held.val + (l.map (Call.deposited token)).sum < Amount.size

namespace Compatible

variable {call x y : Call} {l l' : List Call}

theorem perm (h : Compatible recover config s l) (hperm : l'.Perm l) :
    Compatible recover config s l' where
  config_eq := h.config_eq
  entitled call hcall := h.entitled call (hperm.mem_iff.mp hcall)
  unused n hn := h.unused n ((hperm.filterMap Call.nonce?).mem_iff.mp hn)
  nodup := (hperm.filterMap Call.nonce?).nodup_iff.mpr h.nodup
  room token := by
    rw [(hperm.map (Call.deposited token)).sum_nat]
    exact h.room token

/-- The first call of a list is booked. -/
theorem exists_perform (h : Compatible recover config s (call :: l))
    (he : call.Entitled recover config context d commission) :
    ∃ p q, s.pool d.token = .ok p ∧ q.held.val = p.held.val + d.amount.val ∧
      q.reserved.val = p.reserved.val + commission.val ∧ q.Solvent ∧
      call.perform recover s =
        (.ok (d.response context d.consent.terms.nonce config.stablePercent commission),
          (Posting.deposit d).write s q) := by
  obtain ⟨p, hp, hsolvent, hroom⟩ := h.room d.token
  rw [List.map_cons, List.sum_cons, he.deposited_eq] at hroom
  have hunused : s.isUsed d.consent.terms.nonce = .ok false := by
    refine h.unused _ ?_
    rw [List.filterMap_cons_some he.nonce_eq]
    exact List.mem_cons_self
  obtain ⟨q, hq⟩ := he.exists_perform h.config_eq hunused hp hsolvent (by omega)
  exact ⟨p, q, hp, hq⟩

/-- **A deposit takes up its own nonce and its own room**, and leaves the rest to the others. -/
theorem tail (h : Compatible recover config s (call :: l)) :
    Compatible recover config (call.perform recover s).2 l := by
  obtain ⟨⟨context, d, commission, he⟩, hrest⟩ := List.forall_mem_cons.mp h.entitled
  obtain ⟨p, q, hp, hheld, -, hsolvent, hperform⟩ := h.exists_perform he
  have hnonces := h.nodup
  rw [List.filterMap_cons_some he.nonce_eq] at hnonces
  obtain ⟨hnew, hnodup⟩ := List.nodup_cons.mp hnonces
  rw [hperform]
  exact {
    config_eq := (Posting.config_write _ s q).trans h.config_eq
    entitled := hrest
    unused := by
      intro n hn
      have hne : n ∉ (Posting.deposit d).nonce? := by
        rintro ⟨rfl⟩
        exact hnew hn
      rw [Posting.isUsed_write_of_notMem hne]
      refine h.unused n ?_
      rw [List.filterMap_cons_some he.nonce_eq]
      exact List.mem_cons_of_mem _ hn
    nodup := hnodup
    room := by
      intro token
      obtain ⟨p', hp', hsolvent', hroom⟩ := h.room token
      rw [List.map_cons, List.sum_cons] at hroom
      by_cases htoken : d.token = token
      · subst htoken
        obtain rfl : p' = p := Except.ok.inj (hp'.symm.trans hp)
        rw [he.deposited_eq] at hroom
        exact ⟨q, (Posting.deposit d).pool_write s q, hsolvent, by omega⟩
      · have hne : (Posting.deposit d).token ≠ token := htoken
        rw [he.deposited_of_ne htoken] at hroom
        exact ⟨p', (Posting.pool_write_of_ne hne s q).trans hp', hsolvent', by omega⟩ }

/-- **Two deposits in a row** leave the same store in both orders. -/
theorem perform_perform (h : Compatible recover config s (x :: y :: l)) :
    (y.perform recover (x.perform recover s).2).2 =
      (x.perform recover (y.perform recover s).2).2 := by
  have hswap : Compatible recover config s (y :: x :: l) := h.perm (.swap ..)
  obtain ⟨⟨_, d, _, hx⟩, hrest⟩ := List.forall_mem_cons.mp h.entitled
  obtain ⟨⟨_, e, _, hy⟩, -⟩ := List.forall_mem_cons.mp hrest
  have hnonce : d.consent.terms.nonce ≠ e.consent.terms.nonce := by
    have hnonces := h.nodup
    rw [List.filterMap_cons_some hx.nonce_eq, List.filterMap_cons_some hy.nonce_eq] at hnonces
    exact List.ne_of_not_mem_cons (List.nodup_cons.mp hnonces).1
  -- the pools behind one deposit, and then behind both, in either order
  obtain ⟨p, q, hp, hheld, hreserved, -, hxs⟩ := h.exists_perform hx
  obtain ⟨p', q', hp', hheld', hreserved', -, hys⟩ := hswap.exists_perform hy
  have hbehindx := h.tail
  have hbehindy := hswap.tail
  rw [hxs] at hbehindx ⊢
  rw [hys] at hbehindy ⊢
  obtain ⟨p₁, q₁, hp₁, hheld₁, hreserved₁, -, hxys⟩ := hbehindx.exists_perform hy
  obtain ⟨p₂, q₂, hp₂, hheld₂, hreserved₂, -, hyxs⟩ := hbehindy.exists_perform hx
  rw [hxys, hyxs]
  change (Posting.deposit e).write ((Posting.deposit d).write s q) q₁ =
    (Posting.deposit d).write ((Posting.deposit e).write s q') q₂
  by_cases htoken : d.token = e.token
  · rw [htoken] at hp hp₂
    rw [← htoken] at hp₁
    obtain rfl : p' = p := Except.ok.inj (hp'.symm.trans hp)
    obtain rfl : p₁ = q := Except.ok.inj (hp₁.symm.trans ((Posting.deposit d).pool_write s q))
    obtain rfl : p₂ = q' := Except.ok.inj (hp₂.symm.trans ((Posting.deposit e).pool_write s q'))
    obtain rfl : q₁ = q₂ := Pool.ext (by omega) (by omega)
    exact Deposit.write_comm_of_token_eq hnonce htoken s p₁ p₂ q₁
  · have hd : (Posting.deposit d).token ≠ e.token := htoken
    have he : (Posting.deposit e).token ≠ d.token := Ne.symm htoken
    rw [Posting.pool_write_of_ne hd] at hp₁
    rw [Posting.pool_write_of_ne he] at hp₂
    obtain rfl : p₁ = p' := Except.ok.inj (hp₁.symm.trans hp')
    obtain rfl : p₂ = p := Except.ok.inj (hp₂.symm.trans hp)
    obtain rfl : q₁ = q' :=
      Pool.ext (hheld₁.trans hheld'.symm) (hreserved₁.trans hreserved'.symm)
    obtain rfl : q₂ = q :=
      Pool.ext (hheld₂.trans hheld.symm) (hreserved₂.trans hreserved.symm)
    exact Deposit.write_comm hnonce htoken s q₂ q₁

/-- **The store that is left does not depend on the order.** -/
theorem run_perm (h : Compatible recover config s l) (hperm : l.Perm l') :
    Call.run recover l s = Call.run recover l' s := by
  induction hperm generalizing s with
  | nil => rfl
  | cons x _ ih => exact ih h.tail
  | swap x y l =>
    rw [Call.run_cons, Call.run_cons, Call.run_cons, Call.run_cons, h.perform_perform]
  | trans hfirst _ ih ih' => exact (ih h).trans (ih' (h.perm hfirst.symm))

end Compatible

namespace Call

variable {call : Call} {l : List Call}

/-- On a store, a call books a deposit at a commission: it succeeds, and the deposit is added to
what is held of its token, and the commission to what is reserved. -/
structure Books (recover : Recovery) (call : Call) (s : Store) (d : Deposit) (commission : Amount)
    (r : Response) : Prop where
  posting_eq : call.posting? = some (.deposit d)
  outcome_eq : (call.perform recover s).1 = .ok r
  pool : ∃ before after, s.pool d.token = .ok before ∧
    (call.perform recover s).2.pool d.token = .ok after ∧
    after.held.val = before.held.val + d.amount.val ∧
    after.reserved.val = before.reserved.val + commission.val

theorem books_of_compatible (h : Compatible recover config s (call :: l))
    (he : call.Entitled recover config context d commission) :
    call.Books recover s d commission
      (d.response context d.consent.terms.nonce config.stablePercent commission) := by
  obtain ⟨p, q, hp, hheld, hreserved, -, hperform⟩ := h.exists_perform he
  exact {
    posting_eq := he.posting_eq
    outcome_eq := by rw [hperform]
    pool := ⟨p, q, hp, by rw [hperform]; exact (Posting.deposit d).pool_write s q, hheld,
      hreserved⟩ }

/-- Each call of a run of compatible deposits books its own. -/
theorem books_of_mem_history {turn : Turn} (h : Compatible recover config s l)
    (hturn : turn ∈ history recover l s) :
    turn.call ∈ l ∧ ∃ context d commission,
      turn.call.Entitled recover config context d commission ∧
      turn.outcome = (turn.call.perform recover turn.before).1 ∧
      turn.call.Books recover turn.before d commission
        (d.response context d.consent.terms.nonce config.stablePercent commission) := by
  induction l generalizing s with
  | nil => cases hturn
  | cons call l ih =>
    rcases List.mem_cons.mp hturn with rfl | hturn
    · obtain ⟨context, d, commission, he⟩ := h.entitled call List.mem_cons_self
      exact ⟨List.mem_cons_self, context, d, commission, he, rfl, books_of_compatible h he⟩
    · obtain ⟨hmem, hbooks⟩ := ih h.tail hturn
      exact ⟨List.mem_cons_of_mem _ hmem, hbooks⟩

/-- **Deposits commute.** Take a store with settings that some run from the empty store has left,
and calls that deposit, each of which would succeed on it, with different nonces, such that what is
held of each token and all that is to be deposited of it are together in range. Then in every order
all of them succeed; each answers what it would answer alone, and books the same deposit at the same
commission as it would alone; and the store that is left is the same in every order. -/
theorem deposits_commute (signer? : Word → Bytes → Option EthAddress) (calls deposits : List Call)
    (config : Config) :
    let recover := Recovery.ofOption signer?
    let s := run recover calls ∅
    s.config = .ok config →
    (∀ call ∈ deposits, call.IsDeposit ∧ (call.perform recover s).1.isOk = true) →
    (deposits.filterMap nonce?).Nodup →
    (∀ token p, s.pool token = .ok p →
      p.held.val + (deposits.map (deposited token)).sum < Amount.size) →
    ∀ order : List Call, order.Perm deposits →
      (∀ turn ∈ history recover order s, ∃ d commission r, turn.outcome = .ok r ∧
        turn.call.Books recover turn.before d commission r ∧
        turn.call.Books recover s d commission r) ∧
      run recover order s = run recover deposits s := by
  intro recover s hconfig hdeposits hnodup hroom order horder
  have hs : s.WellFormed := run_wellFormed signer? calls Store.WellFormed.empty
  have hcompatible : Compatible recover config s deposits := {
    config_eq := hconfig
    entitled := by
      intro call hcall
      obtain ⟨hdeposit, hok⟩ := hdeposits call hcall
      obtain ⟨context, d, commission, he, -⟩ := exists_entitled hconfig hdeposit hok
      exact ⟨context, d, commission, he⟩
    unused := by
      intro n hn
      obtain ⟨call, hcall, hnonce⟩ := List.mem_filterMap.mp hn
      obtain ⟨hdeposit, hok⟩ := hdeposits call hcall
      obtain ⟨_, d, _, he, hunused⟩ := exists_entitled hconfig hdeposit hok
      obtain rfl := Option.some.inj (he.nonce_eq.symm.trans hnonce)
      exact hunused
    nodup := hnodup
    room := by
      intro token
      obtain ⟨p, hp, hsolvent⟩ := hs.pool token
      exact ⟨p, hp, hsolvent, hroom token p hp⟩ }
  have hordered : Compatible recover config s order := hcompatible.perm horder
  refine ⟨fun turn hturn => ?_, hordered.run_perm horder⟩
  obtain ⟨hmem, _, d, commission, he, houtcome, hbooks⟩ := books_of_mem_history hordered hturn
  -- alone, the call is the first one of an order
  have hfirst := hordered.perm (List.perm_cons_erase hmem).symm
  exact ⟨d, commission, _, houtcome.trans hbooks.outcome_eq, hbooks,
    books_of_compatible hfirst he⟩

/-- A user's deposit and one that the token contract reports, taken up in either order. -/
theorem deposits_commute_of_two :
    let trusted : EthAddress := Vector.replicate 20 1
    let signer? : Word → Bytes → Option EthAddress := fun _ _ => some trusted
    let recover := Recovery.ofOption signer?
    let context : Context := ⟨0, "network", "bridge"⟩
    let setup : Instantiation := ⟨none, trusted.text, none⟩
    let consent (nonce : UInt64) : DepositConsent :=
      ⟨⟨⟨1, by decide⟩, "chain", "address", 5, nonce, 1⟩, [0]⟩
    let request : DepositRequest := ⟨"token", ⟨100, by decide⟩, consent 7⟩
    let hook := Hook.bridgeIn (consent 8)
    let notice : TokenNotice := ⟨"user", ⟨50, by decide⟩, Bytes.ofText (writeJson hook)⟩
    let pulled := Call.execute context "user" (writeJson (Command.bridgeIn request))
    let received := Call.execute context "token" (writeJson (Command.receive notice))
    let s := run recover [.instantiate context "founder" (writeJson setup)] ∅
    (∀ turn ∈ history recover [received, pulled] s, turn.outcome.isOk = true) ∧
      run recover [received, pulled] s = run recover [pulled, received] s := by
  intro trusted signer? recover context setup consent request hook notice pulled received s
  have htoken : Address.IsValid "token" := by decide +kernel
  have huser : Address.IsValid "user" := by decide +kernel
  let config : Config := ⟨"founder", trusted.toList, 400, false⟩
  obtain ⟨hconfig, hbooks⟩ : s.config = .ok config ∧ (∅ : Store).SameBooks s :=
    run_instantiation rfl (by decide +kernel) (by decide)
  have hsigned (digest : Word) (signature : Bytes) : config.Signed recover digest signature :=
    ⟨trusted, by decide, rfl⟩
  -- either deposit alone
  let first : Deposit := .ofRequest "user" request
  let second : Deposit := ⟨"user", "token", notice.amount, consent 8, .received⟩
  have hfirstCommission : Commission.total first.amount ⟨1, by decide⟩ config.stablePercent =
      .ok ⟨5, by decide⟩ :=
    Commission.total_eq_ok.mpr ⟨by decide, by decide⟩
  have hsecondCommission : Commission.total second.amount ⟨1, by decide⟩ config.stablePercent =
      .ok ⟨3, by decide⟩ :=
    Commission.total_eq_ok.mpr ⟨by decide, by decide⟩
  have hfirst : (first.book recover context).run.run s = (.ok _, _) :=
    Deposit.run_book_of_empty hconfig ⟨rfl, htoken, by decide, by decide, by decide, by decide⟩
      (hbooks.isUsed_of_empty _) (hsigned _ _) hfirstCommission (hbooks.pool_of_empty _)
  have hsecond : (second.book recover context).run.run s = (.ok _, _) :=
    Deposit.run_book_of_empty hconfig ⟨rfl, htoken, by decide, by decide, by decide, by decide⟩
      (hbooks.isUsed_of_empty _) (hsigned _ _) hsecondCommission (hbooks.pool_of_empty _)
  have hnotice : Deposit.ofNotice "token" notice = .ok second := by
    refine Deposit.ofNotice_eq_ok.mpr ⟨huser, consent 8, ?_, rfl⟩
    dsimp only [notice]
    exact Hook.read?_writeJson hook
  have hpulled : Schema.command.read (writeJson (Command.bridgeIn request)) =
      .ok (Command.bridgeIn request) :=
    Schema.read_writeJson ..
  have hreceived : Schema.command.read (writeJson (Command.receive notice)) =
      .ok (Command.receive notice) :=
    Schema.read_writeJson ..
  have hpulledRun : pulled.perform recover s = (.ok _, _) :=
    perform_eq_ok.mpr (Handler.host_bind_eq_ok.mpr ⟨_, hpulled, hfirst⟩)
  have hreceivedRun : received.perform recover s = (.ok _, _) :=
    perform_eq_ok.mpr (Handler.host_bind_eq_ok.mpr ⟨_, hreceived,
      Handler.host_bind_eq_ok.mpr ⟨_, hnotice, hsecond⟩⟩)
  have hpulledPosting : (Command.bridgeIn request).posting? "user" = some (.deposit first) := rfl
  have hreceivedPosting : (Command.receive notice).posting? "token" = some (.deposit second) :=
    Command.posting?_receive hnotice
  have hdeposits : ∀ call ∈ [pulled, received],
      call.IsDeposit ∧ (call.perform recover s).1.isOk = true := by
    refine List.forall_mem_cons.mpr ⟨⟨⟨_, hpulled, trivial⟩, by rw [hpulledRun]; rfl⟩, ?_⟩
    exact List.forall_mem_singleton.mpr ⟨⟨_, hreceived, trivial⟩, by rw [hreceivedRun]; rfl⟩
  -- together
  have hpulledNonce : pulled.nonce? = some 7 := nonce?_of_read hpulled
  have hreceivedNonce : received.nonce? = some 8 :=
    (nonce?_of_read hreceived).trans (Command.nonce?_of_posting hreceivedPosting)
  have hnodup : ([pulled, received].filterMap nonce?).Nodup := by
    rw [List.filterMap_cons_some hpulledNonce, List.filterMap_cons_some hreceivedNonce]
    decide
  have hroom : ∀ token p, s.pool token = .ok p →
      p.held.val + ([pulled, received].map (deposited token)).sum < Amount.size := by
    intro token p hp
    obtain rfl : p = .empty := Except.ok.inj (hp.symm.trans (hbooks.pool_of_empty token))
    have hpulledLe : pulled.deposited token ≤ 100 :=
      deposited_le_of_posting ((posting?_of_read hpulled).trans hpulledPosting) token
    have hreceivedLe : received.deposited token ≤ 50 :=
      deposited_le_of_posting ((posting?_of_read hreceived).trans hreceivedPosting) token
    have hsum (a b : ℕ) (ha : a ≤ 100) (hb : b ≤ 50) :
        Pool.empty.held.val + [a, b].sum < Amount.size := by
      have hheld : Pool.empty.held.val = 0 := rfl
      have hsize : 150 < Amount.size := by decide
      simp only [List.sum_cons, List.sum_nil]
      omega
    exact hsum _ _ hpulledLe hreceivedLe
  have horder : [received, pulled].Perm [pulled, received] := .swap ..
  obtain ⟨hturns, hrun⟩ := deposits_commute signer?
    [.instantiate context "founder" (writeJson setup)] [pulled, received] config hconfig hdeposits
    hnodup hroom [received, pulled] horder
  refine ⟨fun turn hturn => ?_, hrun⟩
  obtain ⟨_, _, r, hok, -⟩ := hturns turn hturn
  rw [hok]
  rfl

end Call

end TokenCustody
