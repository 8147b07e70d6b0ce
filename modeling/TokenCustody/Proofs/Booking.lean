import TokenCustody.Bridge.Run
import TokenCustody.Proofs.Layout
import TokenCustody.Proofs.Steps

/-!
# What is booked when a handler succeeds

One lemma for each of the four handlers that work on the books: it succeeds exactly if its checks
hold and the pool takes what is asked of it, and then it answers its response and leaves the store
with the new pool and, where the trusted signer was asked, with the nonce consumed
(`Deposit.book_eq_ok` and its siblings). The first deposit of a token always has room and makes up
the whole pool (`Deposit.run_book_of_empty`). An admissible request whose nonce has been consumed is
refused for that reason, whatever its signature is (`Deposit.book_of_isUsed` and its sibling).

The checks that look at the request, the settings and the time only are the `Admissible` of a
request; they come before any look at the nonces. Behind them, a request is approved
(`Config.approve`) and then entered into the books (`Deposit.run_book_of_admissible` and its
sibling). A deposit that a token contract reports comes from its notice (`Deposit.ofNotice_eq_ok`).
-/

namespace TokenCustody

variable {recover : Recovery} {context : Context} {sender : String} {s t : Store} {r : Response}

/-- The checks of a deposit in front of the signature. -/
structure Deposit.Admissible (d : Deposit) (context : Context) (config : Config) : Prop where
  not_paused : config.paused = false
  token_valid : Address.IsValid d.token
  destinationAddress_ne : d.consent.terms.destinationAddress ≠ ""
  destinationChain_ne : d.consent.terms.destinationChain ≠ ""
  amount_ne : d.amount ≠ 0
  in_time : context.seconds ≤ d.consent.terms.deadline

/-- The checks of a release in front of the signature. -/
structure ReleaseRequest.Admissible (q : ReleaseRequest) (context : Context) (config : Config) :
    Prop where
  not_paused : config.paused = false
  token_valid : Address.IsValid q.terms.token
  recipient_valid : Address.IsValid q.terms.recipient
  amount_ne : q.terms.amount ≠ 0
  in_time : context.seconds ≤ q.terms.deadline

/-- The trusted signer has signed a digest. -/
def Config.Signed (config : Config) (recover : Recovery) (digest : Word) (signature : Bytes) :
    Prop :=
  ∃ signer, config.signerAddress? = some signer ∧ recover digest signature = .ok signer

/-! ### Behind the first checks -/

namespace Config

variable {config : Config} {digest : Word} {signature : Bytes} {nonce : UInt64}

/-- Approves a nonce for a digest that the trusted signer of the settings has signed. -/
def approve (config : Config) (recover : Recovery) (digest : Word) (signature : Bytes)
    (nonce : UInt64) : Handler Approval := do
  let signer ← Handler.accept config.signerIdentity
  Approval.verify recover signer digest signature nonce

theorem approve_of_signed (hunused : s.isUsed nonce = .ok false)
    (hsigned : config.Signed recover digest signature) :
    (config.approve recover digest signature nonce).run.run s = (.ok ⟨nonce⟩, s) := by
  obtain ⟨signer, hsigner, hrecover⟩ := hsigned
  rw [approve, Handler.run_bind_of_ok
    (Handler.accept_eq_ok.mpr ⟨signerIdentity_eq_ok.mpr hsigner, rfl⟩)]
  exact Approval.verify_eq_ok.mpr ⟨hunused, hrecover, rfl, rfl⟩

/-- A nonce that has been consumed is not approved. -/
theorem approve_of_isUsed {signer : EthAddress} (hsigner : config.signerAddress? = some signer)
    (hused : s.isUsed nonce = .ok true) :
    (config.approve recover digest signature nonce).run.run s =
      (.error (.rejected (.alreadyUsedSignature nonce)), s) := by
  rw [approve, Handler.run_bind_of_ok
    (Handler.accept_eq_ok.mpr ⟨signerIdentity_eq_ok.mpr hsigner, rfl⟩)]
  exact Approval.verify_of_isUsed hused

end Config

/-- Enters an approved deposit into the books: the commission, the pool and the nonce. -/
def Deposit.enter (d : Deposit) (context : Context) (config : Config) (a : Approval) :
    Handler Response := do
  let commission ←
    Handler.result
      (Commission.total d.amount d.consent.terms.gasCommission config.stablePercent)
  let _ ← Handler.book d.token (PoolAction.deposit d.amount commission)
  let nonce ← a.spend
  return d.response context nonce config.stablePercent commission

/-- Enters an approved release into the books: the pool and the nonce. -/
def Release.enter (context : Context) (terms : ReleaseTerms) (a : Approval) :
    Handler Response := do
  let _ ← Handler.book terms.token (PoolAction.release terms.amount)
  let nonce ← a.spend
  return releaseResponse context terms nonce

/-- The hook in a message, if the message is one. -/
def Hook.read? (message : Bytes) : Option Hook :=
  (Utf8.decode message).toOption.bind readJson?

theorem Hook.read?_writeJson (hook : Hook) : read? (Bytes.ofText (writeJson hook)) = some hook := by
  rw [read?, Utf8.decode_ofText, Except.toOption, Option.bind_some, readJson?_writeJson]

namespace Deposit

variable {d : Deposit}

/-- **A notice reports a deposit exactly if** the account that the tokens come from has an address
and the message that comes along is a hook. -/
theorem ofNotice_eq_ok {token : String} {notice : TokenNotice} :
    ofNotice token notice = .ok d ↔ Address.IsValid notice.sender ∧
      ∃ consent, Hook.read? notice.message = some (.bridgeIn consent) ∧
        ⟨notice.sender, token, notice.amount, consent, .received⟩ = d := by
  simp only [ofNotice, bind_eq_ok, exists_unit, Address.check_eq_ok]
  refine and_congr_right fun _ => ?_
  rw [← Hook.read?]
  rcases Hook.read? notice.message with _ | ⟨⟨consent⟩⟩
  · simp
  · simp only [Option.some.injEq, Hook.bridgeIn.injEq, exists_eq_left']
    exact ⟨Except.ok.inj, congrArg Except.ok⟩

/-- **A deposit is booked exactly if** it is admissible, its nonce is unused, the trusted signer has
consented, and the pool takes the amount with its commission. -/
theorem book_eq_ok : (d.book recover context).run.run s = (.ok r, t) ↔
    ∃ config commission p q, s.config = .ok config ∧ d.Admissible context config ∧
      s.isUsed d.consent.terms.nonce = .ok false ∧
      config.Signed recover (d.authorization context).signedDigest d.consent.signature ∧
      Commission.total d.amount d.consent.terms.gasCommission config.stablePercent =
        .ok commission ∧
      s.pool d.token = .ok p ∧
      (PoolAction.deposit d.amount commission).run.run p = (.ok (), q) ∧
      d.response context d.consent.terms.nonce config.stablePercent commission = r ∧
      (s.save (.pool d.token) q).save (.nonce d.consent.terms.nonce) true = t := by
  simp only [book, Handler.bind_eq_ok, Handler.ask_eq_ok, Handler.require_eq_ok,
    Handler.accept_eq_ok, Handler.result_eq_ok, Context.refuseAfter_eq_ok,
    Config.signerIdentity_eq_ok, Approval.verify_eq_ok, Handler.book_eq_ok, Approval.spend_eq_ok,
    Handler.pure_eq_ok, exists_unit, and_assoc, exists_and_left, exists_eq_left']
  constructor
  · rintro ⟨config, hconfig, hpaused, htoken, haddress, hchain, hamount, htime, signer, hsigner,
      hunused, hsigned, commission, hcommission, q, _, ⟨p, hp, hq, -, rfl⟩, -, rfl, rfl⟩
    rw [Bool.not_eq_true'] at hpaused
    exact ⟨config, hconfig, ⟨hpaused, htoken, haddress, hchain, hamount, htime⟩, hunused,
      ⟨signer, hsigner, hsigned⟩, commission, hcommission, p, hp, q, hq, rfl, rfl⟩
  · rintro ⟨config, hconfig, ⟨hpaused, htoken, haddress, hchain, hamount, htime⟩, hunused,
      ⟨signer, hsigner, hsigned⟩, commission, hcommission, p, hp, q, hq, rfl, rfl⟩
    rw [← Bool.not_eq_true'] at hpaused
    have hsolvent := (PoolAction.deposit_eq_ok.mp hq).2.2.2
    -- the nonce is looked at again once the pool is stored, which stands under another key
    exact ⟨config, hconfig, hpaused, htoken, haddress, hchain, hamount, htime, signer, hsigner,
      hunused, hsigned, commission, hcommission, q, _, ⟨p, hp, hq, hsolvent, rfl⟩,
      (Store.isUsed_save_of_ne s (by simp) q).trans hunused, rfl, rfl⟩

/-- **The first deposit of a token** is all that there is in its pool. -/
theorem run_book_of_empty {config : Config} {commission : Amount} (hconfig : s.config = .ok config)
    (hd : d.Admissible context config) (hunused : s.isUsed d.consent.terms.nonce = .ok false)
    (hsigned :
      config.Signed recover (d.authorization context).signedDigest d.consent.signature)
    (hcommission :
      Commission.total d.amount d.consent.terms.gasCommission config.stablePercent =
        .ok commission)
    (hempty : s.pool d.token = .ok .empty) :
    (d.book recover context).run.run s =
      (.ok (d.response context d.consent.terms.nonce config.stablePercent commission),
        (s.save (.pool d.token) ⟨d.amount, commission⟩).save
          (.nonce d.consent.terms.nonce) true) := by
  obtain ⟨-, hle⟩ := Commission.total_eq_ok.mp hcommission
  have hadded : (PoolAction.deposit d.amount commission).run.run .empty =
      (.ok (), ⟨d.amount, commission⟩) :=
    PoolAction.deposit_eq_ok.mpr ⟨hle, (Nat.zero_add _).symm, (Nat.zero_add _).symm, hle⟩
  exact book_eq_ok.mpr ⟨config, commission, .empty, _, hconfig, hd, hunused, hsigned,
    hcommission, hempty, hadded, rfl, rfl⟩

/-- An admissible deposit is approved and entered. -/
theorem run_book_of_admissible {config : Config} (hconfig : s.config = .ok config)
    (hd : d.Admissible context config) :
    (d.book recover context).run.run s =
      (config.approve recover (d.authorization context).signedDigest d.consent.signature
        d.consent.terms.nonce >>= d.enter context config).run.run s := by
  have hpaused : (!config.paused) = true := (Bool.not_eq_true' _).mpr hd.not_paused
  rw [book, Handler.run_bind_of_ok (Handler.ask_eq_ok.mpr ⟨hconfig, rfl⟩),
    Handler.run_bind_of_done (Handler.require_eq_ok.mpr ⟨hpaused, rfl⟩),
    Handler.run_bind_of_done (Handler.require_eq_ok.mpr ⟨hd.token_valid, rfl⟩),
    Handler.run_bind_of_done (Handler.require_eq_ok.mpr ⟨hd.destinationAddress_ne, rfl⟩),
    Handler.run_bind_of_done (Handler.require_eq_ok.mpr ⟨hd.destinationChain_ne, rfl⟩),
    Handler.run_bind_of_done (Handler.require_eq_ok.mpr ⟨hd.amount_ne, rfl⟩),
    Handler.run_bind_of_done
      (Handler.accept_eq_ok.mpr ⟨Context.refuseAfter_eq_ok.mpr hd.in_time, rfl⟩),
    Config.approve, bind_assoc]
  rfl

/-- An admissible deposit is refused if its nonce has been consumed. -/
theorem book_of_isUsed {config : Config} {signer : EthAddress} (hconfig : s.config = .ok config)
    (hd : d.Admissible context config) (hsigner : config.signerAddress? = some signer)
    (hused : s.isUsed d.consent.terms.nonce = .ok true) :
    (d.book recover context).run.run s =
      (.error (.rejected (.alreadyUsedSignature d.consent.terms.nonce)), s) := by
  rw [run_book_of_admissible hconfig hd]
  exact Handler.run_bind_of_error (Config.approve_of_isUsed hsigner hused)

end Deposit

namespace Release

/-- **A release by the owner is booked exactly if** the sender is the owner, the terms are in order,
and the pool can let the amount go. -/
theorem settle_eq_ok {q : Settlement} : (settle sender q).run.run s = (.ok r, t) ↔
    ∃ config p p', s.config = .ok config ∧ sender = config.owner ∧ Address.IsValid q.token ∧
      Address.IsValid q.recipient ∧ q.amount ≠ 0 ∧ s.pool q.token = .ok p ∧
      (PoolAction.release q.amount).run.run p = (.ok (), p') ∧
      settlementResponse q = r ∧ s.save (.pool q.token) p' = t := by
  simp only [settle, Handler.bind_eq_ok, asOwner_eq_ok, checkTerms_eq_ok, Handler.book_eq_ok,
    Handler.pure_eq_ok, exists_unit, and_assoc, exists_and_left, exists_eq_left']
  constructor
  · rintro ⟨config, hconfig, howner, htoken, hrecipient, hamount, p', _, ⟨p, hp, hp', -, rfl⟩, rfl,
      rfl⟩
    exact ⟨config, hconfig, howner, htoken, hrecipient, hamount, p, hp, p', hp', rfl, rfl⟩
  · rintro ⟨config, hconfig, howner, htoken, hrecipient, hamount, p, hp, p', hp', rfl, rfl⟩
    have hsolvent := (PoolAction.release_eq_ok.mp hp').2.2
    exact ⟨config, hconfig, howner, htoken, hrecipient, hamount, p', _,
      ⟨p, hp, hp', hsolvent, rfl⟩, rfl, rfl⟩

/-- **A release by the trusted signer is booked exactly if** it is admissible, its nonce is unused,
the trusted signer has signed it, and the pool can let the amount go. -/
theorem present_eq_ok {q : ReleaseRequest} : (present recover context q).run.run s = (.ok r, t) ↔
    ∃ config p p', s.config = .ok config ∧ q.Admissible context config ∧
      s.isUsed q.terms.nonce = .ok false ∧
      config.Signed recover (authorization context q.terms).signedDigest q.signature ∧
      s.pool q.terms.token = .ok p ∧
      (PoolAction.release q.terms.amount).run.run p = (.ok (), p') ∧
      releaseResponse context q.terms q.terms.nonce = r ∧
      (s.save (.pool q.terms.token) p').save (.nonce q.terms.nonce) true = t := by
  simp only [present, Handler.bind_eq_ok, Handler.ask_eq_ok, Handler.require_eq_ok,
    checkTerms_eq_ok, Handler.accept_eq_ok, Context.refuseAfter_eq_ok,
    Config.signerIdentity_eq_ok, Approval.verify_eq_ok, Handler.book_eq_ok, Approval.spend_eq_ok,
    Handler.pure_eq_ok, exists_unit, and_assoc, exists_and_left, exists_eq_left']
  constructor
  · rintro ⟨config, hconfig, hpaused, htoken, hrecipient, hamount, htime, signer, hsigner, hunused,
      hsigned, p', _, ⟨p, hp, hp', -, rfl⟩, -, rfl, rfl⟩
    rw [Bool.not_eq_true'] at hpaused
    exact ⟨config, hconfig, ⟨hpaused, htoken, hrecipient, hamount, htime⟩, hunused,
      ⟨signer, hsigner, hsigned⟩, p, hp, p', hp', rfl, rfl⟩
  · rintro ⟨config, hconfig, ⟨hpaused, htoken, hrecipient, hamount, htime⟩, hunused,
      ⟨signer, hsigner, hsigned⟩, p, hp, p', hp', rfl, rfl⟩
    rw [← Bool.not_eq_true'] at hpaused
    have hsolvent := (PoolAction.release_eq_ok.mp hp').2.2
    -- as for a deposit, storing the pool leaves the nonce unused
    exact ⟨config, hconfig, hpaused, htoken, hrecipient, hamount, htime, signer, hsigner, hunused,
      hsigned, p', _, ⟨p, hp, hp', hsolvent, rfl⟩,
      (Store.isUsed_save_of_ne s (by simp) p').trans hunused, rfl, rfl⟩

/-- An admissible release is approved and entered. -/
theorem run_present_of_admissible {q : ReleaseRequest} {config : Config}
    (hconfig : s.config = .ok config) (hq : q.Admissible context config) :
    (present recover context q).run.run s =
      (config.approve recover (authorization context q.terms).signedDigest q.signature
        q.terms.nonce >>= enter context q.terms).run.run s := by
  have hpaused : (!config.paused) = true := (Bool.not_eq_true' _).mpr hq.not_paused
  rw [present, Handler.run_bind_of_ok (Handler.ask_eq_ok.mpr ⟨hconfig, rfl⟩),
    Handler.run_bind_of_done (Handler.require_eq_ok.mpr ⟨hpaused, rfl⟩),
    Handler.run_bind_of_done
      (checkTerms_eq_ok.mpr ⟨hq.token_valid, hq.recipient_valid, hq.amount_ne, rfl⟩),
    Handler.run_bind_of_done
      (Handler.accept_eq_ok.mpr ⟨Context.refuseAfter_eq_ok.mpr hq.in_time, rfl⟩),
    Config.approve, bind_assoc]
  rfl

/-- An admissible release is refused if its nonce has been consumed. -/
theorem present_of_isUsed {q : ReleaseRequest} {config : Config} {signer : EthAddress}
    (hconfig : s.config = .ok config) (hq : q.Admissible context config)
    (hsigner : config.signerAddress? = some signer)
    (hused : s.isUsed q.terms.nonce = .ok true) :
    (present recover context q).run.run s =
      (.error (.rejected (.alreadyUsedSignature q.terms.nonce)), s) := by
  rw [run_present_of_admissible hconfig hq]
  exact Handler.run_bind_of_error (Config.approve_of_isUsed hsigner hused)

/-- **Commission is withdrawn exactly if** the sender is the owner, the token is one, and as much is
reserved. -/
theorem withdrawCommission_eq_ok {token : String} {amount : Amount} :
    (withdrawCommission sender token amount).run.run s = (.ok r, t) ↔
      ∃ config p p', s.config = .ok config ∧ sender = config.owner ∧ Address.IsValid token ∧
        s.pool token = .ok p ∧ (PoolAction.withdraw amount).run.run p = (.ok (), p') ∧
        withdrawalResponse config.owner token amount p'.reserved = r ∧
        s.save (.pool token) p' = t := by
  simp only [withdrawCommission, Handler.bind_eq_ok, asOwner_eq_ok, Handler.require_eq_ok,
    Handler.book_eq_ok, Handler.pure_eq_ok, exists_unit, and_assoc, exists_and_left,
    exists_eq_left']
  constructor
  · rintro ⟨config, hconfig, howner, htoken, p', _, ⟨p, hp, hp', -, rfl⟩, rfl, rfl⟩
    exact ⟨config, hconfig, howner, htoken, p, hp, p', hp', rfl, rfl⟩
  · rintro ⟨config, hconfig, howner, htoken, p, hp, p', hp', rfl, rfl⟩
    have hsolvent := (PoolAction.withdraw_eq_ok.mp hp').2.2
    exact ⟨config, hconfig, howner, htoken, p', _, ⟨p, hp, hp', hsolvent, rfl⟩, rfl, rfl⟩

end Release

end TokenCustody
