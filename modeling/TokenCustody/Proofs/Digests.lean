import TokenCustody.Proofs.Posting
import TokenCustody.Proofs.Questions
import TokenCustody.Proofs.Verification

/-!
# What is signed is what is asked for

A signer may ask the bridge itself for the digest of a deposit or a release. The question lists the
fields that the request will have, and the bridge makes its digest of them a second time when the
request comes in: the user is then the sender, or the account that a token contract names, and the
token may be the sender. `Command.presented?` tells the question that belongs to a command, with the
signature that the command presents.

A command that succeeds has presented a signature of the trusted signer over the digest that the
question is answered with, and reports the payload hash of the same answer. Conversely, a command
that gets as far as its signature, with an unused nonce, is refused for the signature exactly if it
is not one of the trusted signer over that digest (`Command.digest_agrees`).
-/

namespace TokenCustody

variable {recover : Recovery} {context : Context} {sender : String} {s t : Store}

/-! ### Postings -/

namespace Posting

variable {p : Posting} {r : Response} {question : Question} {signature : Bytes}

/-- The question that belongs to a posting, with the signature that is presented. -/
def presented? : Posting → Option (Question × Bytes)
  | .deposit d =>
    some (.bridgeInDigest d.user d.token d.amount d.consent.terms, d.consent.signature)
  | .release q => some (.transferOutDigest q.terms, q.signature)
  | .settlement _ | .withdrawal .. => none

/-- A posting that succeeds has presented a signature over what its question is answered with. -/
theorem exists_answer_of_eq_ok (h : (p.handle recover context sender).run.run s = (.ok r, t))
    (hpresented : p.presented? = some (question, signature))
    (huser : ∀ d, p = .deposit d → Address.IsValid d.user) :
    ∃ payloadHash digest config,
      (∀ source store, question.answer source context store =
        .ok (Question.digestAnswer payloadHash digest)) ∧
      r.attributes.lookup "payload_hash" = some (Hex.marked payloadHash.toList) ∧
      s.config = .ok config ∧ config.Signed recover digest signature := by
  cases p with
  | deposit d =>
    obtain ⟨rfl, rfl⟩ := Prod.mk.inj (Option.some.inj hpresented)
    obtain ⟨config, commission, _, _, hconfig, hd, -, hsigned, -, -, -, rfl, -⟩ :=
      Deposit.book_eq_ok.mp h
    let a := d.authorization context
    refine ⟨a.payloadHash, a.signedDigest, config, fun source store => ?_, rfl, hconfig, hsigned⟩
    exact Deposit.answer_question_eq_ok.mpr ⟨huser d rfl, hd.token_valid, rfl⟩
  | release q =>
    obtain ⟨rfl, rfl⟩ := Prod.mk.inj (Option.some.inj hpresented)
    obtain ⟨config, _, _, hconfig, hq, -, hsigned, -, -, rfl, -⟩ := Release.present_eq_ok.mp h
    let a := Release.authorization context q.terms
    refine ⟨a.payloadHash, a.signedDigest, config, fun source store => ?_, rfl, hconfig, hsigned⟩
    exact Release.answer_question_eq_ok.mpr ⟨hq.token_valid, hq.recipient_valid, rfl⟩
  | settlement | withdrawal => cases hpresented

/-- **An admissible posting with an unused nonce** fails for its signature exactly if the signature
is not the trusted signer's over what the question is answered with. -/
theorem verifies_handle_iff {config : Config} {source : BalanceSource} {store : Store}
    {payloadHash digest : Word} {nonce : UInt64} (signer? : Word → Bytes → Option EthAddress)
    (hpresented : p.presented? = some (question, signature))
    (hanswer : question.answer source context store =
      .ok (Question.digestAnswer payloadHash digest))
    (hconfig : s.config = .ok config) (hp : p.Admissible context config)
    (hnonce : nonce ∈ p.nonce?) (hunused : s.isUsed nonce = .ok false) :
    (p.handle (.ofOption signer?) context sender).Verifies s ↔
      config.Signed (.ofOption signer?) digest signature := by
  cases p with
  | deposit d =>
    obtain ⟨rfl, rfl⟩ := Prod.mk.inj (Option.some.inj hpresented)
    obtain rfl := Option.some.inj hnonce
    obtain ⟨-, -, hdigest⟩ := Deposit.answer_question_eq_ok.mp hanswer
    obtain ⟨-, rfl⟩ := Question.digestAnswer_inj.mp hdigest
    refine (Handler.verifies_congr (Deposit.run_book_of_admissible hconfig hp)).trans ?_
    exact Config.verifies_approve_bind_iff signer? hunused (d.verifies_enter config hunused)
  | release q =>
    obtain ⟨rfl, rfl⟩ := Prod.mk.inj (Option.some.inj hpresented)
    obtain rfl := Option.some.inj hnonce
    obtain ⟨-, -, hdigest⟩ := Release.answer_question_eq_ok.mp hanswer
    obtain ⟨-, rfl⟩ := Question.digestAnswer_inj.mp hdigest
    refine (Handler.verifies_congr (Release.run_present_of_admissible hconfig hp)).trans ?_
    exact Config.verifies_approve_bind_iff signer? hunused (Release.verifies_enter q.terms hunused)
  | settlement | withdrawal => cases hpresented

end Posting

/-! ### Commands -/

namespace Command

variable {c : Command} {p : Posting}

/-- The commands that present a signature. -/
def IsSigned : Command → Prop
  | .bridgeIn _ | .receive _ | .transferOut _ => True
  | _ => False

/-- The question that belongs to a command, with the signature that is presented: a user asks for
himself, and a token contract is itself the token. -/
def presented? (sender : String) : Command → Option (Question × Bytes)
  | .bridgeIn q =>
    some (.bridgeInDigest sender q.token q.amount q.consent.terms, q.consent.signature)
  | .receive n =>
    match Hook.read? n.message with
    | some (.bridgeIn consent) =>
      some (.bridgeInDigest n.sender sender n.amount consent.terms, consent.signature)
    | none => none
  | .transferOut q => some (.transferOutDigest q.terms, q.signature)
  | _ => none

theorem presented?_of_posting (h : c.posting? sender = some p) :
    c.presented? sender = p.presented? := by
  cases c with
  | receive notice =>
    obtain ⟨d, hd, rfl⟩ := Option.map_eq_some_iff.mp h
    obtain ⟨-, consent, hhook, rfl⟩ := Deposit.ofNotice_eq_ok.mp (toOption_eq_some.mp hd)
    rw [presented?, hhook]
    rfl
  | bridgeIn | transferOut | bridgeOut | withdrawCommission =>
    obtain rfl := Option.some.inj h
    rfl
  | _ => cases h

/-- A command that presents a signature and succeeds has a posting, whose user has an address if
the sender has one or is a token contract. -/
theorem exists_posting_of_isSigned {r : Response} (hc : c.IsSigned)
    (h : (c.handle recover context sender).run.run s = (.ok r, t))
    (hsender : ∀ request, c = .bridgeIn request → Address.IsValid sender) :
    ∃ p, c.posting? sender = some p ∧ p.presented?.isSome ∧
      ∀ d, p = .deposit d → Address.IsValid d.user := by
  cases c with
  | bridgeIn request =>
    refine ⟨_, rfl, rfl, ?_⟩
    rintro _ ⟨rfl⟩
    exact hsender request rfl
  | receive notice =>
    obtain ⟨d, hnotice, -⟩ := Handler.host_bind_eq_ok.mp h
    refine ⟨_, posting?_receive hnotice, rfl, ?_⟩
    rintro _ ⟨rfl⟩
    obtain ⟨huser, _, -, rfl⟩ := Deposit.ofNotice_eq_ok.mp hnotice
    exact huser
  | transferOut request =>
    refine ⟨_, rfl, rfl, ?_⟩
    rintro d ⟨⟩
  | _ => exact hc.elim

/-- **What is signed is what is asked for.** A deposit or a signed release that succeeds has
presented a signature of the trusted signer over the digest that its question is answered with, on
every store and in the same context; and it reports the payload hash of this answer. Conversely, if
the question is answered and the command gets as far as its signature, with an unused nonce, then it
does not fail for the signature exactly if this is the trusted signer's over the digest of the
answer. -/
theorem digest_agrees (signer? : Word → Bytes → Option EthAddress) (c : Command)
    (context : Context) (sender : String) (s : Store) :
    let recover := Recovery.ofOption signer?
    (∀ r t, (c.handle recover context sender).run.run s = (.ok r, t) → c.IsSigned →
      (∀ request, c = .bridgeIn request → Address.IsValid sender) →
        ∃ question signature payloadHash digest config,
          c.presented? sender = some (question, signature) ∧
          (∀ source store, question.answer source context store =
            .ok (Question.digestAnswer payloadHash digest)) ∧
          r.attributes.lookup "payload_hash" = some (Hex.marked payloadHash.toList) ∧
          s.config = .ok config ∧ config.Signed recover digest signature) ∧
      ∀ question signature source store payloadHash digest config p nonce,
        c.presented? sender = some (question, signature) →
        question.answer source context store = .ok (Question.digestAnswer payloadHash digest) →
        s.config = .ok config → c.posting? sender = some p → p.Admissible context config →
        nonce ∈ p.nonce? → s.isUsed nonce = .ok false →
          ((c.handle recover context sender).Verifies s ↔
            config.Signed recover digest signature) := by
  intro recover
  refine ⟨?_, ?_⟩
  · intro r t h hsigned hsender
    obtain ⟨p, hposting, hsome, huser⟩ := exists_posting_of_isSigned hsigned h hsender
    obtain ⟨⟨question, signature⟩, hpresented⟩ := Option.isSome_iff_exists.mp hsome
    rw [run_handle_of_posting hposting] at h
    obtain ⟨payloadHash, digest, config, hanswer⟩ :=
      Posting.exists_answer_of_eq_ok h hpresented huser
    have hquestion := (presented?_of_posting hposting).trans hpresented
    exact ⟨question, signature, payloadHash, digest, config, hquestion, hanswer⟩
  · intro question signature source store payloadHash digest config p nonce hquestion hanswer
      hconfig hposting hp hnonce hunused
    have hpresented := (presented?_of_posting hposting).symm.trans hquestion
    rw [Handler.verifies_congr (run_handle_of_posting hposting)]
    exact Posting.verifies_handle_iff signer? hpresented hanswer hconfig hp hnonce hunused

/-- The trusted signer releases five of the seven units that are not reserved. -/
theorem digest_agrees_of_release :
    let trusted : EthAddress := Vector.replicate 20 1
    let signer? : Word → Bytes → Option EthAddress := fun _ _ => some trusted
    let recover := Recovery.ofOption signer?
    let context : Context := ⟨0, "network", "bridge"⟩
    let config : Config := ⟨"owner", trusted.toList, 400, false⟩
    let before : Pool := ⟨⟨10, by decide⟩, ⟨3, by decide⟩⟩
    let terms : ReleaseTerms :=
      ⟨"token", "recipient", ⟨5, by decide⟩, ⟨1, by decide⟩, 5, 7, 1⟩
    let c : Command := .transferOut ⟨terms, [0]⟩
    let s := ((∅ : Store).save .config config).save (.pool "token") before
    ∃ r t question signature payloadHash digest config,
      (c.handle recover context "anyone").run.run s = (.ok r, t) ∧
        c.presented? "anyone" = some (question, signature) ∧
        (∀ source store, question.answer source context store =
          .ok (Question.digestAnswer payloadHash digest)) ∧
        r.attributes.lookup "payload_hash" = some (Hex.marked payloadHash.toList) ∧
        s.config = .ok config ∧ config.Signed recover digest signature := by
  intro trusted signer? recover context config before terms c s
  have hconfig : s.config = .ok config := by
    rw [Store.config_save_of_ne _ (by simp), Store.config_save]
  have hadmissible : ReleaseRequest.Admissible ⟨terms, [0]⟩ context config :=
    ⟨rfl, by decide +kernel, by decide +kernel, by decide, by decide⟩
  have hunused : s.isUsed 7 = .ok false := by
    rw [Store.isUsed_save_of_ne _ (by simp), Store.isUsed_save_of_ne _ (by simp),
      Store.isUsed_empty]
  have hbefore : s.pool "token" = .ok before := Store.pool_save ..
  have hrelease : (PoolAction.release terms.amount).run.run before =
      (.ok (), ⟨⟨5, by decide⟩, ⟨3, by decide⟩⟩) :=
    PoolAction.release_eq_ok.mpr ⟨rfl, rfl, by decide⟩
  have hsigned : config.Signed recover (Release.authorization context terms).signedDigest [0] :=
    ⟨trusted, by decide, rfl⟩
  have h : (c.handle recover context "anyone").run.run s = (.ok _, _) :=
    Release.present_eq_ok.mpr ⟨config, before, _, hconfig, hadmissible, hunused, hsigned, hbefore,
      hrelease, rfl, rfl⟩
  have hrequest (request : DepositRequest) (hc : c = .bridgeIn request) :
      Address.IsValid "anyone" :=
    Command.noConfusion hc
  obtain ⟨question, signature, payloadHash, digest, config', hanswer⟩ :=
    (digest_agrees signer? c context "anyone" s).1 _ _ h trivial hrequest
  exact ⟨_, _, question, signature, payloadHash, digest, config', h, hanswer⟩

end Command

/-! ### Calls -/

/-- The message of a call is a command that presents a signature. -/
def Call.IsSigned : Call → Prop
  | .execute _ _ message => ∃ c : Command, Schema.command.read message = .ok c ∧ c.IsSigned
  | .instantiate .. | .migrate .. => False

end TokenCustody
