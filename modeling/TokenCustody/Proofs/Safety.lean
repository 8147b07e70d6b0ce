import TokenCustody.Bridge.Query
import TokenCustody.Bridge.Run
import TokenCustody.Proofs.Defect

/-!
# No call breaks the store or stumbles over it

Every run from the empty store keeps to well-formed stores, and on these no call and no question
fails with a defect (`Call.run_wellFormed_and_no_defect`). Handler by handler, each is shown to be
safe (`Handler.Safe`); the commission does not abort since the percentage is bounded, and the checks
of a pool behind the first one do not fail since the pool is solvent. The one defect that a call may
report is a signer that is none, and only an instantiation whose own message names it does.
-/

namespace TokenCustody

open Handler (Safe)

variable {context : Context} {sender : String} (signer? : Word → Bytes → Option EthAddress)

/-! ### Results -/

theorem Schema.harmless_read {α : Type} [Codec α] {schema : Schema} (h : ¬ schema.IsStored)
    (text : String) :
    Harmless HostError.IsDefect (fun _ : α => True) (schema.read text) := by
  rw [read]
  split
  · trivial
  · exact h

theorem Address.harmless_check (text : String) :
    Harmless HostError.IsDefect (fun _ => IsValid text) (check text) := by
  cases h : check text with
  | ok u => exact check_eq_ok.mp h
  | error cause =>
    rw [check] at h
    split at h
    · cases h
      exact id
    · cases h

theorem Context.harmless_refuseAfter (deadline : UInt64) :
    Harmless Rejection.IsDefect (fun _ => True) (context.refuseAfter deadline) := by
  rw [refuseAfter]
  split_ifs
  · exact id
  · trivial

theorem Commission.harmless_checkStablePercent (percent : UInt64) :
    Harmless Rejection.IsDefect (fun _ => percent ≤ maxStablePercent)
      (checkStablePercent percent) := by
  rw [checkStablePercent]
  split_ifs with h
  · exact id
  · exact UInt64.not_lt.mp h

/-- A signature that names nobody is refused without a defect. -/
theorem Recovery.harmless_ofOption (digest : Word) (signature : Bytes) :
    Harmless Rejection.IsDefect (fun _ => True) (ofOption signer? digest signature) := by
  rw [ofOption]
  split
  · trivial
  · exact id

namespace Config.Sound

variable {c : Config} (hc : c.Sound)

include hc

theorem harmless_signerIdentity :
    Harmless Rejection.IsDefect (fun _ => True) c.signerIdentity := by
  obtain ⟨signer, hsigner⟩ := hc.signerIdentity
  rw [hsigner]
  trivial

/-- The percentage of sound settings is too small for a charge to abort. -/
theorem harmless_charge (amount fixed : Amount) :
    Harmless (Failure.IsDefect Overflow.IsDefect) (fun _ => True)
      (Commission.charge amount fixed c.stablePercent) := by
  cases h : Commission.charge amount fixed c.stablePercent with
  | ok commission => trivial
  | error failure =>
    rcases Commission.charge_eq_error.mp h with ⟨hsize, rfl⟩ | ⟨stable, -, -, rfl⟩
    · have hlt := Commission.share_lt amount hc.le_hundredPercent
      omega
    · exact id

theorem harmless_total (amount fixed : Amount) :
    Harmless (Failure.IsDefect Rejection.IsDefect) (fun _ => True)
      (Commission.total amount fixed c.stablePercent) := by
  cases h : Commission.total amount fixed c.stablePercent with
  | ok commission => trivial
  | error failure =>
    rcases Commission.total_eq_error.mp h with
      ⟨hsize, rfl⟩ | ⟨stable, -, -, rfl⟩ | ⟨commission, -, -, rfl⟩
    · have hlt := Commission.share_lt amount hc.le_hundredPercent
      omega
    · exact id
    · exact id

end Config.Sound

namespace Store.WellFormed

variable {s : Store} (hs : s.WellFormed)

include hs

theorem harmless_config : Harmless HostError.IsDefect Config.Sound s.config := by
  rcases hs.config with hnone | ⟨c, hc, hsound⟩
  · rw [hnone]
    exact id
  · rw [hc]
    exact hsound

theorem harmless_pool (token : String) :
    Harmless HostError.IsDefect Pool.Solvent (s.pool token) := by
  obtain ⟨p, hp, hsolvent⟩ := hs.pool token
  rw [hp]
  exact hsolvent

theorem harmless_isUsed (n : UInt64) :
    Harmless HostError.IsDefect (fun _ => True) (s.isUsed n) := by
  obtain ⟨b, hb⟩ := hs.isUsed n
  rw [hb]
  trivial

theorem harmless_pendingOwner :
    Harmless HostError.IsDefect (fun _ => True) (s.load? .pendingOwner) := by
  obtain ⟨owner, howner⟩ := hs.load?_pendingOwner
  rw [howner]
  trivial

end Store.WellFormed

/-! ### Steps -/

namespace Handler

theorem safe_ask_config : (ask Store.config).Safe Config.Sound :=
  Safe.ask fun _ hs => hs.harmless_config

theorem safe_ask_pendingOwner : (ask (·.load? .pendingOwner)).Safe fun _ => True :=
  Safe.ask fun _ hs => hs.harmless_pendingOwner

theorem safe_ask_isUsed (n : UInt64) : (ask (·.isUsed n)).Safe fun _ => True :=
  Safe.ask fun _ hs => hs.harmless_isUsed n

theorem safe_save_config {c : Config} (hc : c.Sound) : (save .config c).Safe fun _ => True :=
  Safe.save ⟨c, readJson?_writeJson c, hc⟩

theorem safe_save_version : (save .version Version.current).Safe fun _ => True :=
  Safe.save (readJson?_writeJson Version.current)

theorem safe_storePool {token : String} {p : Pool} (htoken : Address.IsValid token)
    (hp : p.Solvent) : (storePool token p).Safe fun _ => True := by
  rw [storePool, Pool.checkSolvent_eq_ok.mpr hp]
  exact Safe.save ⟨htoken, p, readJson?_writeJson p, hp⟩

/-- Booking is safe for an action that is harmless from solvent pools and leaves solvent ones. -/
theorem safe_book {token : String} {action : PoolAction Unit} (htoken : Address.IsValid token)
    (herror : ∀ p q cause, p.Solvent → action.run.run p = (.error cause, q) → ¬ cause.IsDefect)
    (hok : ∀ p q, action.run.run p = (.ok (), q) → q.Solvent) :
    (book token action).Safe fun _ => True := by
  refine (Safe.ask fun _ hs => hs.harmless_pool token).bind fun p hp => ?_
  rcases hrun : action.run.run p with ⟨cause | ⟨⟨⟩⟩, q⟩
  · exact Safe.reject (herror p q cause hp hrun)
  · exact (safe_storePool htoken (hok p q hrun)).bind fun _ _ => Safe.pure trivial

end Handler

namespace Nonce

theorem safe_consume (n : UInt64) : (consume n).Safe fun _ => True :=
  (Handler.safe_ask_isUsed n).bind fun _ _ =>
    Safe.refuseIf id (Safe.save (readJson?_writeJson true))

end Nonce

namespace Approval

theorem safe_verify (trusted : EthAddress) (digest : Word) (signature : Bytes) (n : UInt64) :
    (verify (.ofOption signer?) trusted digest signature n).Safe fun _ => True := by
  refine (Handler.safe_ask_isUsed n).bind fun _ _ => Safe.refuseIf id ?_
  refine (Safe.accept (Recovery.harmless_ofOption signer? digest signature)).bind fun _ _ => ?_
  exact (Safe.require id).bind fun _ _ => Safe.pure trivial

theorem safe_spend (a : Approval) : a.spend.Safe fun _ => True :=
  (Nonce.safe_consume a.nonce).bind fun _ _ => Safe.pure trivial

end Approval

/-! ### Handlers -/

namespace Release

theorem safe_asOwner : (asOwner sender).Safe Config.Sound :=
  Handler.safe_ask_config.bind fun _ hc => (Safe.require id).bind fun _ _ => Safe.pure hc

theorem safe_checkTerms (token recipient : String) (amount : Amount) :
    (checkTerms token recipient amount).Safe fun _ => Address.IsValid token :=
  (Safe.require id).bind fun _ htoken =>
    (Safe.require id).bind fun _ _ => (Safe.require id).mono fun _ _ => htoken

theorem safe_book {token : String} (htoken : Address.IsValid token) (amount : Amount) :
    (Handler.book token (PoolAction.release amount)).Safe fun _ => True := by
  refine Handler.safe_book htoken (fun p q cause hp h => ?_) fun p q h => ?_
  · rw [(PoolAction.release_eq_error hp h).2]
    exact id
  · exact (PoolAction.release_eq_ok.mp h).2.2

theorem safe_settle (q : Settlement) : (settle sender q).Safe fun _ => True := by
  refine safe_asOwner.bind fun _ _ => ?_
  refine (safe_checkTerms q.token q.recipient q.amount).bind fun _ htoken => ?_
  exact (safe_book htoken q.amount).bind fun _ _ => Safe.pure trivial

theorem safe_present (q : ReleaseRequest) :
    (present (.ofOption signer?) context q).Safe fun _ => True := by
  refine Handler.safe_ask_config.bind fun config hc => (Safe.require id).bind fun _ _ => ?_
  refine (safe_checkTerms q.terms.token q.terms.recipient q.terms.amount).bind fun _ htoken => ?_
  refine (Safe.accept (Context.harmless_refuseAfter q.terms.deadline)).bind fun _ _ => ?_
  refine (Safe.accept hc.harmless_signerIdentity).bind fun signer _ => ?_
  refine (Approval.safe_verify signer? signer _ q.signature q.terms.nonce).bind fun a _ => ?_
  refine (safe_book htoken q.terms.amount).bind fun _ _ => ?_
  exact (Approval.safe_spend a).bind fun _ _ => Safe.pure trivial

theorem safe_withdrawCommission (token : String) (amount : Amount) :
    (withdrawCommission sender token amount).Safe fun _ => True := by
  refine safe_asOwner.bind fun _ _ => (Safe.require id).bind fun _ htoken => ?_
  refine Safe.bind (Handler.safe_book htoken (fun p q cause hp h => ?_) fun p q h => ?_)
    fun _ _ => Safe.pure trivial
  · rw [(PoolAction.withdraw_eq_error hp h).2]
    exact id
  · exact (PoolAction.withdraw_eq_ok.mp h).2.2

end Release

namespace Deposit

theorem harmless_ofNotice (token : String) (notice : TokenNotice) :
    Harmless HostError.IsDefect (fun _ => True) (ofNotice token notice) := by
  refine (Address.harmless_check notice.sender).bind fun _ _ => ?_
  split
  · trivial
  · exact id

theorem safe_book (d : Deposit) : (d.book (.ofOption signer?) context).Safe fun _ => True := by
  refine Handler.safe_ask_config.bind fun config hc => (Safe.require id).bind fun _ _ => ?_
  refine (Safe.require id).bind fun _ htoken => (Safe.require id).bind fun _ _ => ?_
  refine (Safe.require id).bind fun _ _ => (Safe.require id).bind fun _ _ => ?_
  refine (Safe.accept (Context.harmless_refuseAfter d.consent.terms.deadline)).bind fun _ _ => ?_
  refine (Safe.accept hc.harmless_signerIdentity).bind fun signer _ => ?_
  refine (Approval.safe_verify signer? signer _ d.consent.signature d.consent.terms.nonce).bind
    fun a _ => ?_
  refine (Safe.result (hc.harmless_total d.amount d.consent.terms.gasCommission)).bind
    fun commission _ => ?_
  refine Safe.bind (Handler.safe_book htoken (fun p q cause hp h => ?_) fun p q h => ?_)
    fun _ _ => (Approval.safe_spend a).bind fun _ _ => Safe.pure trivial
  · rcases (PoolAction.deposit_eq_error hp h).2 with rfl | rfl
    · exact id
    · exact id
  · exact (PoolAction.deposit_eq_ok.mp h).2.2.2

end Deposit

namespace Administration

theorem safe_setStablePercent (percent : UInt64) :
    (setStablePercent sender percent).Safe fun _ => True := by
  refine Release.safe_asOwner.bind fun config hc => ?_
  refine (Safe.accept (Commission.harmless_checkStablePercent percent)).bind fun _ hle => ?_
  have hsaved : Config.Sound { config with stablePercent := percent } :=
    { hc with stablePercent_le := hle }
  refine (Handler.safe_save_config hsaved).bind fun _ _ => ?_
  exact Safe.pure trivial

theorem safe_setPaused (paused : Bool) : (setPaused sender paused).Safe fun _ => True := by
  refine Release.safe_asOwner.bind fun config hc => (Safe.require id).bind fun _ _ => ?_
  have hsaved : Config.Sound { config with paused } := { hc with }
  refine (Handler.safe_save_config hsaved).bind fun _ _ => ?_
  exact Safe.pure trivial

theorem safe_proposeOwner (newOwner : String) :
    (proposeOwner sender newOwner).Safe fun _ => True := by
  refine Release.safe_asOwner.bind fun _ _ => ?_
  refine (Safe.host (Address.harmless_check newOwner)).bind fun _ hvalid => ?_
  have hsaved : (Handler.save .pendingOwner newOwner).Safe fun _ => True :=
    Safe.save ⟨newOwner, readJson?_writeJson newOwner, hvalid⟩
  exact hsaved.bind fun _ _ => Safe.pure trivial

theorem safe_acceptOwnership : (acceptOwnership sender).Safe fun _ => True := by
  refine Handler.safe_ask_pendingOwner.bind fun owner _ => ?_
  cases owner with
  | none => exact Safe.reject id
  | some newOwner =>
    refine (Safe.require id).bind fun _ _ => Handler.safe_ask_config.bind fun config hc => ?_
    have hsaved : Config.Sound { config with owner := newOwner } := { hc with }
    refine (Handler.safe_save_config hsaved).bind fun _ _ => ?_
    exact (Safe.remove .pendingOwner).bind fun _ _ => Safe.pure trivial

theorem safe_cancelProposal : (cancelProposal sender).Safe fun _ => True := by
  refine Release.safe_asOwner.bind fun _ _ => Handler.safe_ask_pendingOwner.bind fun owner _ => ?_
  cases owner with
  | none => exact Safe.reject id
  | some newOwner => exact (Safe.remove .pendingOwner).bind fun _ _ => Safe.pure trivial

end Administration

namespace Migration

theorem safe_handle (m : Migration) : m.handle.Safe fun _ => True :=
  Handler.safe_save_version.bind fun _ _ => Safe.pure trivial

end Migration

namespace Command

theorem safe_handle (c : Command) :
    (c.handle (.ofOption signer?) context sender).Safe fun _ => True := by
  cases c with
  | bridgeIn request => exact (Deposit.ofRequest sender request).safe_book signer?
  | receive notice =>
    exact (Safe.host (Deposit.harmless_ofNotice sender notice)).bind fun d _ => d.safe_book signer?
  | transferOut request => exact Release.safe_present signer? request
  | bridgeOut settlement => exact Release.safe_settle settlement
  | withdrawCommission token amount => exact Release.safe_withdrawCommission token amount
  | setStableCommissionPercent percent => exact Administration.safe_setStablePercent percent
  | pause => exact Administration.safe_setPaused true
  | unpause => exact Administration.safe_setPaused false
  | proposeOwner newOwner => exact Administration.safe_proposeOwner newOwner
  | acceptOwnership => exact Administration.safe_acceptOwnership
  | cancelOwnershipProposal => exact Administration.safe_cancelProposal

end Command

namespace Instantiation

variable {m : Instantiation}

theorem harmless_ownerOr (m : Instantiation) (sender : String) :
    Harmless HostError.IsDefect (fun _ => True) (m.ownerOr sender) := by
  rw [ownerOr]
  split
  next owner _ =>
    have hcheck := Address.harmless_check owner
    cases hc : Address.check owner with
    | ok u => trivial
    | error cause =>
      rw [hc] at hcheck
      exact hcheck
  next => trivial

/-- Setting the bridge up is safe if the message names a signer. -/
theorem safe_handle {signer : EthAddress} (hsigner : m.signerIdentity = .ok signer) :
    (m.handle context sender).Safe fun _ => True := by
  refine Handler.safe_save_version.bind fun _ _ => ?_
  refine (Safe.host (m.harmless_ownerOr sender)).bind fun owner _ => ?_
  rw [hsigner]
  refine (Safe.accept (Commission.harmless_checkStablePercent _)).bind fun _ hle => ?_
  -- the settings are sound since the text of the signer has been parsed
  have hparse : EthAddress.parse m.signer = .ok signer := mapError_eq_ok.mp hsigner
  have hsaved : Config.Sound {
      owner
      signer := signer.toList
      stablePercent := m.stablePercent.getD Commission.defaultStablePercent
      paused := false } :=
    { length_signer := signer.length_toList
      signer_ne_zero := EthAddress.exists_ne_zero_of_parse hparse
      stablePercent_le := hle }
  refine (Handler.safe_save_config hsaved).bind fun _ _ => ?_
  exact Safe.pure trivial

/-- If the message names no signer, then setting the bridge up fails for that reason, or before, for
another one that is no defect. -/
theorem handle_eq_error {cause : Rejection} (hsigner : m.signerIdentity = .error cause)
    (context : Context) (sender : String) (s : Store) :
    ∃ failure t, (m.handle context sender).run.run s = (.error failure, t) ∧
      (failure.IsDefect Rejection.IsDefect → failure = .rejected cause) := by
  have hharmless := m.harmless_ownerOr sender
  simp only [handle, Handler.run_bind, Handler.run_save, Handler.run_host, Handler.run_accept,
    hsigner]
  cases howner : m.ownerOr sender with
  | ok owner => exact ⟨_, _, rfl, fun _ => rfl⟩
  | error fault => exact ⟨_, _, rfl, fun h => absurd h (hharmless.not_defect howner)⟩

end Instantiation

/-! ### Calls -/

namespace Call

variable {s : Store}

/-- A failure of a call is the refusal of an instantiation whose message names no signer. -/
def NamesNoSigner (call : Call) (failure : Failure Rejection) : Prop :=
  ∃ context sender message fault, call = .instantiate context sender message ∧
    failure = .rejected (.invalidSignerIdentity (.text fault))

/-- A call is safe, or it is an instantiation whose message names no signer. -/
theorem safe_handle (call : Call) :
    (call.handle (.ofOption signer?)).Safe (fun _ => True) ∨
      ∃ context sender message, ∃ m : Instantiation, ∃ cause,
        call = .instantiate context sender message ∧
          Schema.instantiation.read message = .ok m ∧ m.signerIdentity = .error cause := by
  cases call with
  | execute context sender message =>
    exact .inl ((Safe.host (Schema.harmless_read id message)).bind
      fun c _ => c.safe_handle signer?)
  | migrate context message =>
    exact .inl ((Safe.host (Schema.harmless_read id message)).bind fun m _ => m.safe_handle)
  | instantiate context sender message =>
    have hread : Harmless HostError.IsDefect (fun _ : Instantiation => True)
        (Schema.instantiation.read message) :=
      Schema.harmless_read id message
    cases hm : (Schema.instantiation.read message : Except HostError Instantiation) with
    | error cause =>
      rw [hm] at hread
      refine .inl ?_
      rw [handle, hm]
      exact Safe.reject hread
    | ok m =>
      cases hsigner : m.signerIdentity with
      | ok signer =>
        refine .inl ?_
        rw [handle, hm]
        exact Instantiation.safe_handle hsigner
      | error cause => exact .inr ⟨context, sender, message, m, cause, rfl, hm, hsigner⟩

/-- **A call on a well-formed store leaves a well-formed one, and does not fail with a defect**,
unless it is an instantiation whose message names no signer. -/
theorem perform_wellFormed (call : Call) (hs : s.WellFormed) :
    (call.perform (.ofOption signer?) s).2.WellFormed ∧ ∀ failure,
      (call.perform (.ofOption signer?) s).1 = .error failure →
        failure.IsDefect Rejection.IsDefect → call.NamesNoSigner failure := by
  rw [perform]
  rcases safe_handle signer? call with hsafe | ⟨context, sender, message, m, cause, rfl, hm, hcause⟩
  · have hrun := hsafe s hs
    rcases hcall : (call.handle (.ofOption signer?)).run.run s with ⟨failure | response, t⟩
    · rw [hcall] at hrun
      refine ⟨hs, fun failure' hfailure hdefect => absurd hdefect ?_⟩
      exact Except.error.inj hfailure ▸ hrun
    · rw [hcall] at hrun
      exact ⟨hrun.1, nofun⟩
  -- the message names no signer: this is the one defect that may be reported
  · obtain ⟨failure, t, hrun, hfailure⟩ := Instantiation.handle_eq_error hcause context sender s
    obtain ⟨fault, -, rfl⟩ := mapError_eq_error.mp hcause
    have hcall : ((Call.instantiate context sender message).handle (.ofOption signer?)).run.run s =
        (.error failure, t) := by
      rw [handle, hm]
      exact hrun
    rw [hcall]
    refine ⟨hs, fun failure' hfailure' hdefect => ⟨context, sender, message, fault, rfl, ?_⟩⟩
    obtain rfl := Except.error.inj hfailure'
    exact hfailure hdefect

/-- A run from a well-formed store keeps to well-formed stores. -/
theorem run_wellFormed (calls : List Call) (hs : s.WellFormed) :
    (run (.ofOption signer?) calls s).WellFormed := by
  induction calls generalizing s with
  | nil => exact hs
  | cons call calls ih => exact ih (perform_wellFormed signer? call hs).1

end Call

/-! ### Questions -/

namespace Question

variable {s : Store}

theorem harmless_checkToken (text : String) :
    Harmless HostError.IsDefect (fun _ => True) (checkToken text) := by
  rw [checkToken]
  split_ifs
  · trivial
  · exact id

theorem harmless_balance (source : BalanceSource) (token account : String) :
    Harmless HostError.IsDefect (fun _ => True) (source.balance token account) := by
  rw [BalanceSource.balance]
  split
  · exact id
  · exact id
  · exact Schema.harmless_read id _

theorem harmless_configAnswer {c : Config} (hc : c.Sound) :
    Harmless HostError.IsDefect (fun _ => True) (configAnswer c) := by
  obtain ⟨signer, hsigner⟩ := hc.signerIdentity
  rw [configAnswer, Config.signerIdentity_eq_ok.mp hsigner]
  trivial

theorem harmless_commissionAnswer (hs : s.WellFormed) (amount fixed : Amount) :
    Harmless (Failure.IsDefect HostError.IsDefect) (fun _ => True)
      (commissionAnswer s amount fixed) := by
  have hmap (failure : Failure Overflow) :
      (failure.map HostError.overflow).IsDefect HostError.IsDefect →
        failure.IsDefect Overflow.IsDefect := by
    cases failure <;> exact id
  refine hs.harmless_config.rejected.bind fun c hc => ?_
  exact ((hc.harmless_charge amount fixed).mapError hmap).bind fun _ _ => trivial

theorem harmless_poolAnswer (hs : s.WellFormed) (source : BalanceSource) (context : Context)
    (token : String) :
    Harmless HostError.IsDefect (fun _ => True) (poolAnswer source context s token) :=
  (Address.harmless_check token).bind fun _ _ => (hs.harmless_pool token).bind fun _ _ =>
    (harmless_balance source token context.bridge).bind fun _ _ => trivial

/-- **A question to a well-formed store does not fail with a defect.** -/
theorem harmless_answer (hs : s.WellFormed) (source : BalanceSource) (context : Context)
    (question : Question) :
    Harmless (Failure.IsDefect HostError.IsDefect) (fun _ => True)
      (question.answer source context s) := by
  cases question with
  | totalCommission amount fixed => exact harmless_commissionAnswer hs amount fixed
  | chainId => trivial
  | stableCommissionPercent =>
    exact Harmless.rejected (hs.harmless_config.bind fun _ _ => trivial)
  | commissionPool token =>
    exact Harmless.rejected ((Address.harmless_check token).bind fun _ _ =>
      (hs.harmless_pool token).bind fun _ _ => trivial)
  | config =>
    exact Harmless.rejected (hs.harmless_config.bind fun _ hc =>
      (harmless_configAnswer hc).bind fun _ _ => trivial)
  | pool token =>
    exact Harmless.rejected ((harmless_poolAnswer hs source context token).bind
      fun _ _ => trivial)
  | nonceUsed nonce =>
    exact Harmless.rejected ((hs.harmless_isUsed nonce).bind fun _ _ => trivial)
  | pendingOwner => exact Harmless.rejected (hs.harmless_pendingOwner.bind fun _ _ => trivial)
  | bridgeInDigest user token amount terms =>
    exact Harmless.rejected ((Address.harmless_check user).bind fun _ _ =>
      (harmless_checkToken token).bind fun _ _ => trivial)
  | transferOutDigest terms =>
    exact Harmless.rejected ((harmless_checkToken terms.token).bind fun _ _ =>
      (Address.harmless_check terms.recipient).bind fun _ _ => trivial)

theorem harmless_answerText (hs : s.WellFormed) (source : BalanceSource) (context : Context)
    (message : String) :
    Harmless (Failure.IsDefect HostError.IsDefect) (fun _ => True)
      (answerText source context s message) := by
  have hread : Harmless HostError.IsDefect (fun _ : Question => True)
      (Schema.question.read message) :=
    Schema.harmless_read id message
  refine hread.rejected.bind fun question _ => ?_
  exact (harmless_answer hs source context question).bind fun _ _ => trivial

end Question

/-- **Every run from the empty store keeps to well-formed stores, on which nothing fails with a
defect**: no further call, unless it is an instantiation whose message names no signer, and no
question. So no call aborts, no stored value is unreadable, no difference is below zero, no pool has
more reserved than held, and no command finds the signer to be none. -/
theorem Call.run_wellFormed_and_no_defect (calls : List Call) :
    let recover := Recovery.ofOption signer?
    let store := run recover calls ∅
    store.WellFormed ∧
      (∀ (call : Call) (failure : Failure Rejection),
        (call.perform recover store).1 = .error failure →
          failure.IsDefect Rejection.IsDefect → call.NamesNoSigner failure) ∧
      ∀ (source : BalanceSource) (context : Context) (message : String)
        (failure : Failure HostError),
        Question.answerText source context store message = .error failure →
          ¬ failure.IsDefect HostError.IsDefect := by
  intro recover store
  have hs : store.WellFormed := run_wellFormed signer? calls Store.WellFormed.empty
  refine ⟨hs, fun call => (perform_wellFormed signer? call hs).2, ?_⟩
  intro source context message failure h
  exact (Question.harmless_answerText hs source context message).not_defect h

end TokenCustody
