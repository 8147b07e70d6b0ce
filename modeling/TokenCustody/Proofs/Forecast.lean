import TokenCustody.Proofs.History
import TokenCustody.Proofs.Questions
import TokenCustody.Proofs.Safety
import TokenCustody.Proofs.Verification

/-!
# Questions foretell calls

Whoever asks the bridge before he calls it learns how the call will end. On every store that a run
leaves, the answers about a pool are the bounds of what the owner may release and withdraw, and a
call beyond a bound is refused with the very amount that has been answered; the answer about a nonce
says whether a signed request with that nonce is refused for it; and the answer about a commission
says what a deposit will be charged, if it can be charged at all (`Call.run_foretold`).

An answer and a call read the store separately. That they agree rests on two facts about reachable
stores: their pools are solvent, so that nothing behind the first check of an operation fails, and
the signer of their settings is an address, so that the nonce is the first thing that a signature
can fail for.
-/

namespace TokenCustody

open Handler (Succeeds)

variable {context : Context} {s : Store} {config : Config}

/-! ### How far the owner may go -/

namespace Handler

variable {h : Handler Response} {amount available : Amount} {cause : Rejection}

/-- A handler takes an amount from what is available: it succeeds exactly if there is enough, and
otherwise it is refused for a given cause and leaves the store as it was. -/
structure Draws (h : Handler Response) (s : Store) (amount available : Amount)
    (cause : Rejection) : Prop where
  succeeds_iff : h.Succeeds s ↔ amount ≤ available
  refused : ¬ amount ≤ available → h.run.run s = (.error (.rejected cause), s)

theorem Draws.of_cases (hle : amount ≤ available → h.Succeeds s)
    (hlt : available < amount → h.run.run s = (.error (.rejected cause), s)) :
    h.Draws s amount available cause := by
  have hrefused (hnot : ¬ amount ≤ available) : h.run.run s = (.error (.rejected cause), s) :=
    hlt (Nat.lt_of_not_le hnot)
  refine ⟨⟨?_, hle⟩, hrefused⟩
  rintro ⟨r, t, hrun⟩
  by_contra hnot
  cases hrun.symm.trans (hrefused hnot)

end Handler

namespace Release

variable {p : Pool}

/-- **The owner releases** as much as is bridgeable, from a solvent pool. -/
theorem draws_settle {q : Settlement} (hconfig : s.config = .ok config)
    (htoken : Address.IsValid q.token) (hrecipient : Address.IsValid q.recipient)
    (hamount : q.amount ≠ 0) (hp : s.pool q.token = .ok p) (hsolvent : p.Solvent) :
    (settle config.owner q).Draws s q.amount p.bridgeable
      (.amountExceedBridgePool q.amount p.bridgeable) := by
  refine .of_cases (fun hle => ?_) fun hlt => ?_
  · obtain ⟨p', hrun⟩ := PoolAction.exists_run_release hsolvent hle
    exact ⟨_, _, settle_eq_ok.mpr ⟨config, p, p', hconfig, rfl, htoken, hrecipient, hamount, hp,
      hrun, rfl, rfl⟩⟩
  · have howner : (asOwner config.owner).run.run s = (.ok config, s) :=
      asOwner_eq_ok.mpr ⟨hconfig, rfl, rfl⟩
    have hterms : (checkTerms q.token q.recipient q.amount).run.run s = (.ok (), s) :=
      checkTerms_eq_ok.mpr ⟨htoken, hrecipient, hamount, rfl⟩
    rw [settle, Handler.run_bind_of_ok howner, Handler.run_bind_of_done hterms]
    exact Handler.run_bind_of_error
      (Handler.run_book_of_error hp (PoolAction.run_release_of_lt hlt))

/-- **The owner withdraws** as much as is reserved, from a solvent pool. -/
theorem draws_withdrawCommission {token : String} {amount : Amount}
    (hconfig : s.config = .ok config) (htoken : Address.IsValid token)
    (hp : s.pool token = .ok p) (hsolvent : p.Solvent) :
    (withdrawCommission config.owner token amount).Draws s amount p.reserved
      (.amountExceedCommissionPool amount p.reserved) := by
  refine .of_cases (fun hle => ?_) fun hlt => ?_
  · obtain ⟨p', hrun⟩ := PoolAction.exists_run_withdraw hsolvent hle
    exact ⟨_, _, withdrawCommission_eq_ok.mpr ⟨config, p, p', hconfig, rfl, htoken, hp, hrun, rfl,
      rfl⟩⟩
  · have howner : (asOwner config.owner).run.run s = (.ok config, s) :=
      asOwner_eq_ok.mpr ⟨hconfig, rfl, rfl⟩
    have hvalid : (Handler.require (Address.IsValid token) .invalidTokenAddress).run.run s =
        (.ok (), s) :=
      Handler.require_eq_ok.mpr ⟨htoken, rfl⟩
    rw [withdrawCommission, Handler.run_bind_of_ok howner, Handler.run_bind_of_done hvalid]
    exact Handler.run_bind_of_error
      (Handler.run_book_of_error hp (PoolAction.run_withdraw_of_lt hlt))

end Release

/-! ### Whether a nonce is refused -/

/-- **An admissible posting is refused for its nonce** exactly if the nonce has been consumed. -/
theorem Posting.run_handle_eq_alreadyUsed_iff {p : Posting} {sender : String} {nonce : UInt64}
    {used : Bool} {signer : EthAddress} (signer? : Word → Bytes → Option EthAddress)
    (hconfig : s.config = .ok config) (hsigner : config.signerAddress? = some signer)
    (hp : p.Admissible context config) (hnonce : nonce ∈ p.nonce?)
    (hused : s.isUsed nonce = .ok used) :
    (p.handle (.ofOption signer?) context sender).run.run s =
        (.error (.rejected (.alreadyUsedSignature nonce)), s) ↔ used = true := by
  cases p with
  | deposit d =>
    obtain rfl := Option.some.inj hnonce
    rw [handle, Deposit.run_book_of_admissible hconfig hp]
    refine Config.run_approve_bind_eq_alreadyUsed_iff signer? hsigner hused fun hunused => ?_
    exact d.verifies_enter config hunused
  | release q =>
    obtain rfl := Option.some.inj hnonce
    rw [handle, Release.run_present_of_admissible hconfig hp]
    refine Config.run_approve_bind_eq_alreadyUsed_iff signer? hsigner hused fun hunused => ?_
    exact Release.verifies_enter q.terms hunused
  | settlement | withdrawal => cases hnonce

/-! ### What a deposit is charged -/

/-- On a store, a handler of a deposit charges a commission: it is refused if the commission is
greater than the deposit, or if the sum of what is held is out of range; and otherwise it adds the
deposit to what is held and the commission to what is reserved. -/
structure Handler.Charges (h : Handler Response) (s : Store) (d : Deposit) (commission : Amount) :
    Prop where
  too_much : ¬ commission ≤ d.amount →
    h.run.run s = (.error (.rejected (.commissionGreaterThanAmount commission d.amount)), s)
  booked : commission ≤ d.amount → ∃ before, s.pool d.token = .ok before ∧
    (Amount.size ≤ before.held.val + d.amount.val →
      h.run.run s = (.error (.rejected (.overflow (.sum before.held d.amount))), s)) ∧
    (before.held.val + d.amount.val < Amount.size → ∃ r t after, h.run.run s = (.ok r, t) ∧
      r.attributes.lookup "total_commission" = some commission.text ∧
      t.pool d.token = .ok after ∧ after.held.val = before.held.val + d.amount.val ∧
      after.reserved.val = before.reserved.val + commission.val)

theorem Handler.Charges.congr {h h' : Handler Response} {d : Deposit} {commission : Amount}
    (hc : h.Charges s d commission) (heq : h.run.run s = h'.run.run s) :
    h'.Charges s d commission where
  too_much := heq ▸ hc.too_much
  booked := heq ▸ hc.booked

/-- **A deposit is charged what has been foretold**, once the trusted signer has consented to it. -/
theorem Deposit.charges_book {recover : Recovery} {d : Deposit} {p : Pool} {c : Amount}
    (hconfig : s.config = .ok config) (hd : d.Admissible context config)
    (hunused : s.isUsed d.consent.terms.nonce = .ok false)
    (hsigned : config.Signed recover (d.authorization context).signedDigest d.consent.signature)
    (hp : s.pool d.token = .ok p) (hsolvent : p.Solvent)
    (hc : Commission.charge d.amount d.consent.terms.gasCommission config.stablePercent = .ok c) :
    (d.book recover context).Charges s d c := by
  have happroved := Config.approve_of_signed hunused hsigned
  have hrun : (d.book recover context).run.run s =
      (d.enter context config ⟨d.consent.terms.nonce⟩).run.run s := by
    rw [run_book_of_admissible hconfig hd, Handler.run_bind_of_ok happroved]
  refine ⟨fun hlt => ?_, fun hle => ⟨p, hp, fun hsize => ?_, fun hsize => ?_⟩⟩
  · have htotal := Commission.total_eq_error.mpr
      (.inr (.inr ⟨c, Commission.charge_eq_ok.mp hc, Nat.lt_of_not_le hlt, rfl⟩))
    rw [hrun, enter, htotal]
    exact Handler.run_bind_of_error (Handler.run_throw _ s)
  · have htotal := Commission.total_eq_ok.mpr ⟨Commission.charge_eq_ok.mp hc, hle⟩
    rw [hrun, enter, Handler.run_bind_of_ok (Handler.result_eq_ok.mpr ⟨htotal, rfl⟩)]
    exact Handler.run_bind_of_error
      (Handler.run_book_of_error hp (PoolAction.run_deposit_of_size_le hle hsize))
  · have htotal := Commission.total_eq_ok.mpr ⟨Commission.charge_eq_ok.mp hc, hle⟩
    obtain ⟨q, hdeposit⟩ := PoolAction.exists_run_deposit hsolvent hle hsize
    obtain ⟨-, hheld, hreserved, -⟩ := PoolAction.deposit_eq_ok.mp hdeposit
    have hbooked := book_eq_ok.mpr ⟨config, c, p, q, hconfig, hd, hunused, hsigned, htotal, hp,
      hdeposit, rfl, rfl⟩
    have hafter : ((s.save (.pool d.token) q).save (.nonce d.consent.terms.nonce) true).pool
        d.token = .ok q := by
      rw [Store.pool_save_of_ne _ (by simp), Store.pool_save]
    exact ⟨_, _, q, hbooked, rfl, hafter, hheld, hreserved⟩

namespace Call

/-- **Questions foretell calls.** On the store of every run from the empty store that has settings:
the commission pool of a token is answered, and is as much as the owner may withdraw; if the pool of
the token is answered too, then what is bridgeable and what is reserved add up to what is held, the
same is reserved, and the owner may release as much as is bridgeable; every nonce is answered to be
used exactly if an admissible posting with it is refused for it; and an admissible deposit of an
unused nonce with the trusted signer's signature is charged the commission that is answered. -/
theorem run_foretold (signer? : Word → Bytes → Option EthAddress) (calls : List Call)
    (config : Config) (source : BalanceSource) (asked : Context) :
    let recover := Recovery.ofOption signer?
    let s := run recover calls ∅
    let answer (question : Question) := question.answer source asked s
    s.config = .ok config →
      (∀ token, Address.IsValid token → ∃ reserved,
        answer (.commissionPool token) = .ok (.commissionPool token reserved) ∧
        (∀ amount context,
          ((Command.withdrawCommission token amount).handle recover context config.owner).Draws s
            amount reserved (.amountExceedCommissionPool amount reserved)) ∧
        ∀ pool, answer (.pool token) = .ok (.pool pool) →
          pool.bridgeable.val + pool.reserved.val = pool.held.val ∧ pool.reserved = reserved ∧
          ∀ (q : Settlement) (context : Context),
            q.token = token → Address.IsValid q.recipient → q.amount ≠ 0 →
              ((Command.bridgeOut q).handle recover context config.owner).Draws s
                q.amount pool.bridgeable (.amountExceedBridgePool q.amount pool.bridgeable)) ∧
      (∀ n, ∃ used, answer (.nonceUsed n) = .ok (.nonceUsed ⟨n, used⟩) ∧
        ∀ (c : Command) (context : Context) (sender : String) (p : Posting),
          c.posting? sender = some p → n ∈ p.nonce? → p.Admissible context config →
            ((c.handle recover context sender).run.run s =
              (.error (.rejected (.alreadyUsedSignature n)), s) ↔ used = true)) ∧
      ∀ (c : Command) (context : Context) (sender : String) (d : Deposit) (commission : Amount),
        c.posting? sender = some (.deposit d) → d.Admissible context config →
        s.isUsed d.consent.terms.nonce = .ok false →
        config.Signed recover (d.authorization context).signedDigest d.consent.signature →
        answer (.totalCommission d.amount d.consent.terms.gasCommission) =
          .ok (.totalCommission commission) →
            (c.handle recover context sender).Charges s d commission := by
  intro recover s answer hconfig
  have hs : s.WellFormed := run_wellFormed signer? calls Store.WellFormed.empty
  obtain ⟨signer, hsigner⟩ := (hs.sound_of_config hconfig).signerIdentity
  refine ⟨fun token htoken => ?_, fun n => ?_, ?_⟩
  · obtain ⟨p, hp, hsolvent⟩ := hs.pool token
    refine ⟨p.reserved, Question.answer_commissionPool_eq_ok.mpr ⟨htoken, p, hp, rfl⟩, ?_, ?_⟩
    · exact fun amount context => Release.draws_withdrawCommission hconfig htoken hp hsolvent
    · intro pool hpool
      obtain ⟨-, p', balance, hp', -, hanswer⟩ := Question.answer_pool_eq_ok.mp hpool
      obtain rfl : p' = p := Except.ok.inj (hp'.symm.trans hp)
      obtain rfl := Answer.pool.inj hanswer
      refine ⟨Nat.sub_add_cancel hsolvent, rfl, fun q context hq hrecipient hamount => ?_⟩
      subst hq
      exact Release.draws_settle hconfig htoken hrecipient hamount hp hsolvent
  · obtain ⟨used, hused⟩ := hs.isUsed n
    refine ⟨used, Question.answer_nonceUsed_eq_ok.mpr ⟨used, hused, rfl⟩, ?_⟩
    intro c context sender p hposting hnonce hp
    rw [Command.run_handle_of_posting hposting]
    exact Posting.run_handle_eq_alreadyUsed_iff signer? hconfig
      (Config.signerIdentity_eq_ok.mp hsigner) hp hnonce hused
  · intro c context sender d commission hposting hd hunused hsigned hcommission
    obtain ⟨config', c', hconfig', hcharge, hanswer⟩ :=
      Question.answer_totalCommission_eq_ok.mp hcommission
    obtain rfl : config' = config := Except.ok.inj (hconfig'.symm.trans hconfig)
    obtain rfl := Answer.totalCommission.inj hanswer
    obtain ⟨p, hp, hsolvent⟩ := hs.pool d.token
    have hcharges : (d.book recover context).Charges s d c' :=
      Deposit.charges_book hconfig hd hunused hsigned hp hsolvent hcharge
    exact hcharges.congr (Command.run_handle_of_posting hposting).symm

/-- Behind a deposit of a hundred units, of which five are commission, the pool is answered to have
ninety-five units to release. So the owner may release these, but not one more. -/
theorem run_foretold_of_deposit :
    let trusted : EthAddress := Vector.replicate 20 1
    let signer? : Word → Bytes → Option EthAddress := fun _ _ => some trusted
    let recover := Recovery.ofOption signer?
    let context : Context := ⟨0, "network", "bridge"⟩
    let setup : Instantiation := ⟨none, trusted.text, none⟩
    let consent : DepositConsent := ⟨⟨⟨1, by decide⟩, "chain", "address", 5, 7, 1⟩, [0]⟩
    let request : DepositRequest := ⟨"token", ⟨100, by decide⟩, consent⟩
    let calls : List Call :=
      [.instantiate context "founder" (writeJson setup),
        .execute context "user" (writeJson (Command.bridgeIn request))]
    let s := run recover calls ∅
    let config : Config := ⟨"founder", trusted.toList, 400, false⟩
    let source : BalanceSource := fun _ _ => .replied (writeJson (⟨⟨100, by decide⟩⟩ : Balance))
    let pool : PoolAnswer :=
      ⟨"token", ⟨100, by decide⟩, ⟨5, by decide⟩, ⟨95, by decide⟩, ⟨100, by decide⟩⟩
    let release (amount : Amount) : Command :=
      .bridgeOut ⟨"token", "recipient", amount, 1, "chain", "address"⟩
    s.config = .ok config ∧ (Question.pool "token").answer source context s = .ok (.pool pool) ∧
      ((release ⟨95, by decide⟩).handle recover context "founder").Succeeds s ∧
      ((release ⟨96, by decide⟩).handle recover context "founder").run.run s =
        (.error (.rejected (.amountExceedBridgePool ⟨96, by decide⟩ ⟨95, by decide⟩)), s) := by
  intro trusted signer? recover context setup consent request calls s config source pool release
  have htoken : Address.IsValid "token" := by decide +kernel
  have hrecipient : Address.IsValid "recipient" := by decide +kernel
  let after : Pool := ⟨⟨100, by decide⟩, ⟨5, by decide⟩⟩
  obtain ⟨hsettings, hafter, -⟩ : s.config = .ok config ∧ s.pool "token" = .ok after ∧ _ :=
    run_instantiation_bridgeIn rfl (by decide +kernel) (by decide)
      ⟨rfl, htoken, by decide, by decide, by decide, by decide⟩ ⟨trusted, by decide, rfl⟩
      (Commission.total_eq_ok.mpr ⟨by decide, by decide⟩)
  have hbalance : source.balance "token" "bridge" = .ok ⟨⟨100, by decide⟩⟩ := by
    simp only [BalanceSource.balance, source, Schema.read_writeJson]
  have hpool : (Question.pool "token").answer source context s = .ok (.pool pool) :=
    Question.answer_pool_eq_ok.mpr ⟨htoken, after, _, hafter, hbalance, rfl⟩
  obtain ⟨htokens, -, -⟩ := run_foretold signer? calls config source context hsettings
  obtain ⟨reserved, -, -, hanswer⟩ := htokens "token" htoken
  obtain ⟨-, -, hdraws⟩ := hanswer pool hpool
  have henough := (hdraws ⟨_, _, ⟨95, by decide⟩, 1, "chain", "address"⟩ context rfl hrecipient
    (by decide)).succeeds_iff.mpr (by decide)
  have htooMuch := (hdraws ⟨_, _, ⟨96, by decide⟩, 1, "chain", "address"⟩ context rfl hrecipient
    (by decide)).refused (by decide)
  exact ⟨hsettings, hpool, henough, htooMuch⟩

end Call

end TokenCustody
