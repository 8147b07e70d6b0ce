import TokenCustody.Proofs.Atomicity

/-!
# What is refused for a signature

A signed request is approved for its signature and its nonce, and then entered into the books. Here
is shown that the refusals of a signature come from the approval only: nothing behind it fails for
the same reasons, from any store on which the nonce is unused (`Deposit.verifies_enter`,
`Release.verifies_enter`). So a request that is approved first fails for its signature exactly if
the trusted signer has not given it (`Config.verifies_approve_bind_iff`), and fails for its nonce
exactly if this has been consumed (`Config.run_approve_bind_eq_alreadyUsed_iff`).

`Handler.Verifies` is the judgment that carries this, with a rule for each step.
-/

namespace TokenCustody

open Handler (Succeeds)

/-- The refusals of a signature or its nonce. -/
def Rejection.OfVerification : Rejection → Prop
  | .invalidSignature | .invalidSignerIdentity _ | .alreadyUsedSignature _ => True
  | _ => False

/-- A failure is the refusal of a signature or its nonce. -/
def Failure.OfVerification : Failure Rejection → Prop
  | .rejected cause => cause.OfVerification
  | .aborted _ => False

theorem Rejection.OfPool.not_ofVerification {e : Rejection} (h : e.OfPool) :
    ¬ e.OfVerification := by
  cases e <;> first | exact id | exact h.elim

variable {α β : Type} {context : Context} {s t : Store}

/-! ### Steps behind the signature -/

/-- On a store, a handler does not fail for a signature or its nonce. -/
def Handler.Verifies (h : Handler α) (s : Store) : Prop :=
  ∀ failure t, h.run.run s = (.error failure, t) → ¬ failure.OfVerification

namespace Handler

theorem verifies_congr {h h' : Handler α} (heq : h.run.run s = h'.run.run s) :
    h.Verifies s ↔ h'.Verifies s := by
  rw [Verifies, Verifies, heq]

theorem Succeeds.verifies {h : Handler α} (hh : h.Succeeds s) : h.Verifies s := by
  intro failure t hfails
  obtain ⟨a, t', hrun⟩ := hh
  cases hrun.symm.trans hfails

theorem Verifies.bind {h : Handler α} {f : α → Handler β} (hh : h.Verifies s)
    (hf : ∀ a t, h.run.run s = (.ok a, t) → (f a).Verifies t) : (h >>= f).Verifies s := by
  intro failure u hfails
  rcases bind_eq_error.mp hfails with hrun | ⟨a, t, hrun, hrest⟩
  · exact hh failure u hrun
  · exact hf a t hrun failure u hrest

theorem verifies_result {x : Except (Failure Rejection) α}
    (hx : ∀ failure, x = .error failure → ¬ failure.OfVerification) : (result x).Verifies s := by
  intro failure t hfails
  rw [run_result] at hfails
  exact hx failure (Prod.mk.inj hfails).1

theorem verifies_accept {x : Except Rejection α} (hx : ∀ cause, x = .error cause → cause.OfPool) :
    (accept x).Verifies s := by
  intro failure t hfails
  rw [run_accept] at hfails
  obtain ⟨cause, hcause, rfl⟩ := mapError_eq_error.mp (Prod.mk.inj hfails).1
  exact (hx cause hcause).not_ofVerification

theorem verifies_ask (question : Store → Except HostError α) : (ask question).Verifies s := by
  intro failure t hfails
  rw [run_ask] at hfails
  obtain ⟨cause, -, rfl⟩ := mapError_eq_error.mp (Prod.mk.inj hfails).1
  exact id

/-- Booking fails for the amounts only, or because the stored pool cannot be read. -/
theorem verifies_book {token : String} {action : PoolAction Unit}
    (haction : ∀ p q cause, action.run.run p = (.error cause, q) → cause.OfPool) :
    (book token action).Verifies s := by
  refine (verifies_ask (·.pool token)).bind fun p t _ => ?_
  rcases hrun : action.run.run p with ⟨outcome, q⟩
  have houtcome (cause : Rejection) (h : outcome = .error cause) : cause.OfPool :=
    haction p q cause (h ▸ hrun)
  refine (verifies_accept houtcome).bind fun _ t _ => ?_
  have hstore : (storePool token q).Verifies t :=
    (verifies_accept fun _ => Pool.ofPool_of_checkSolvent).bind fun _ t _ =>
      (Succeeds.save (.pool token) q t).verifies
  exact hstore.bind fun _ t _ => (Succeeds.pure q t).verifies

end Handler

/-- Computing a commission does not fail for a signature. -/
theorem Commission.not_ofVerification_of_total {amount fixed : Amount} {percent : UInt64}
    {failure : Failure Rejection} (h : total amount fixed percent = .error failure) :
    ¬ failure.OfVerification := by
  rcases total_eq_error.mp h with ⟨-, rfl⟩ | ⟨stable, -, -, rfl⟩ | ⟨c, -, -, rfl⟩
  · exact id
  · exact id
  · exact id

/-- To book for an approval of an unused nonce, and then to spend it. -/
theorem Approval.verifies_book_spend {token : String} {action : PoolAction Unit} {a : Approval}
    {answer : UInt64 → α} (hunused : s.isUsed a.nonce = .ok false)
    (haction : ∀ p q cause, action.run.run p = (.error cause, q) → cause.OfPool) :
    (do
      let _ ← Handler.book token action
      let nonce ← a.spend
      return answer nonce : Handler α).Verifies s := by
  refine (Handler.verifies_book haction).bind fun q t hbook => ?_
  obtain ⟨p, -, -, -, rfl⟩ := Handler.book_eq_ok.mp hbook
  have hspend : a.spend.Succeeds (s.save (.pool token) q) := a.succeeds_spend hunused token q
  exact (hspend.bind fun nonce t _ => Succeeds.pure (answer nonce) t).verifies

theorem Deposit.verifies_enter (d : Deposit) (config : Config) {a : Approval}
    (hunused : s.isUsed a.nonce = .ok false) : (d.enter context config a).Verifies s := by
  refine (Handler.verifies_result fun _ => Commission.not_ofVerification_of_total).bind
    fun commission t hcommission => ?_
  obtain ⟨-, rfl⟩ := Handler.result_eq_ok.mp hcommission
  exact Approval.verifies_book_spend hunused fun _ _ _ => PoolAction.ofPool_of_deposit

theorem Release.verifies_enter (terms : ReleaseTerms) {a : Approval}
    (hunused : s.isUsed a.nonce = .ok false) : (enter context terms a).Verifies s :=
  Approval.verifies_book_spend hunused fun _ _ _ => PoolAction.ofPool_of_release

/-! ### The signature -/

namespace Config

variable {config : Config} {digest : Word} {signature : Bytes} {nonce : UInt64}
variable (signer? : Word → Bytes → Option EthAddress)

/-- A signature that is not the trusted signer's is not approved. -/
theorem verify_of_not_signed {trusted : EthAddress}
    (htrusted : config.signerAddress? = some trusted) (hunused : s.isUsed nonce = .ok false)
    (hsigned : ¬ config.Signed (.ofOption signer?) digest signature) :
    (Approval.verify (.ofOption signer?) trusted digest signature nonce).run.run s =
      (.error (.rejected .invalidSignature), s) := by
  cases hnamed : signer? digest signature with
  | none =>
    have hrecover : Recovery.ofOption signer? digest signature = .error .invalidSignature := by
      rw [Recovery.ofOption, hnamed]
    exact Approval.verify_of_recover_eq_error hunused hrecover
  | some signer =>
    have hrecover : Recovery.ofOption signer? digest signature = .ok signer := by
      rw [Recovery.ofOption, hnamed]
    -- the signature names somebody else, or the trusted signer would have signed
    have hne : signer ≠ trusted := by
      rintro rfl
      exact hsigned ⟨signer, htrusted, hrecover⟩
    exact Approval.verify_of_recover_ne hunused hrecover hne

/-- Where a signature is not the trusted signer's, the approval is refused for it. -/
theorem exists_approve_eq_error (hunused : s.isUsed nonce = .ok false)
    (hsigned : ¬ config.Signed (.ofOption signer?) digest signature) :
    ∃ cause, (config.approve (.ofOption signer?) digest signature nonce).run.run s =
        (.error (.rejected cause), s) ∧
      (cause = .invalidSignature ∨ ∃ fault, cause = .invalidSignerIdentity fault) := by
  cases hsigner : config.signerAddress? with
  | none =>
    refine ⟨_, ?_, .inr ⟨.length config.signer.length, rfl⟩⟩
    rw [approve, signerIdentity, hsigner]
    exact Handler.run_bind_of_error (Handler.run_reject _ s)
  | some trusted =>
    refine ⟨_, ?_, .inl rfl⟩
    rw [approve, Handler.run_bind_of_ok
      (Handler.accept_eq_ok.mpr ⟨signerIdentity_eq_ok.mpr hsigner, rfl⟩)]
    exact verify_of_not_signed signer? hsigner hunused hsigned

/-- **An approval and what follows** fail for the signature exactly if it is not the trusted
signer's, where what follows does not. -/
theorem verifies_approve_bind_iff {f : Approval → Handler α}
    (hunused : s.isUsed nonce = .ok false) (hf : (f ⟨nonce⟩).Verifies s) :
    (config.approve (.ofOption signer?) digest signature nonce >>= f).Verifies s ↔
      config.Signed (.ofOption signer?) digest signature := by
  constructor
  · intro hverifies
    by_contra hsigned
    obtain ⟨cause, hrun, hcause⟩ := exists_approve_eq_error signer? hunused hsigned
    have hfailure : cause.OfVerification := by
      rcases hcause with rfl | ⟨fault, rfl⟩ <;> trivial
    exact hverifies _ s (Handler.run_bind_of_error hrun) hfailure
  · intro hsigned failure t hfails
    rw [Handler.run_bind_of_ok (approve_of_signed hunused hsigned)] at hfails
    exact hf failure t hfails

/-- An approval and what follows are refused for the nonce exactly if it has been consumed. -/
theorem run_approve_bind_eq_alreadyUsed_iff {used : Bool} {signer : EthAddress}
    {f : Approval → Handler α} (hsigner : config.signerAddress? = some signer)
    (hused : s.isUsed nonce = .ok used)
    (hf : s.isUsed nonce = .ok false → (f ⟨nonce⟩).Verifies s) :
    (config.approve (.ofOption signer?) digest signature nonce >>= f).run.run s =
        (.error (.rejected (.alreadyUsedSignature nonce)), s) ↔ used = true := by
  constructor
  · intro hrun
    by_contra hnot
    have hunused : s.isUsed nonce = .ok false := by rw [hused, Bool.eq_false_of_not_eq_true hnot]
    by_cases hsigned : config.Signed (.ofOption signer?) digest signature
    · -- behind a good signature, nothing is refused for the nonce
      rw [Handler.run_bind_of_ok (approve_of_signed hunused hsigned)] at hrun
      exact hf hunused _ s hrun trivial
    · obtain ⟨cause, happrove, hcause⟩ := exists_approve_eq_error signer? hunused hsigned
      have hbind := Handler.run_bind_of_error (f := f) happrove
      rcases hcause with rfl | ⟨fault, rfl⟩
      · cases hbind.symm.trans hrun
      · cases hbind.symm.trans hrun
  · rintro rfl
    exact Handler.run_bind_of_error (approve_of_isUsed hsigner hused)

end Config

end TokenCustody
