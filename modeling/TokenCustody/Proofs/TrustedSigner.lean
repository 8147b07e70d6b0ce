import TokenCustody.Bridge.Query
import TokenCustody.Proofs.Digests
import TokenCustody.Proofs.Footprint
import TokenCustody.Proofs.HexText
import TokenCustody.Proofs.Ownership

/-!
# The trusted signer stays the same

Whoever sets the bridge up names the trusted signer, as a text, and nobody can name another one
later on. Calls that revise the settings read them and write them back, with the signer as it is
(`Command.signer_revise`), and all other calls leave the settings alone; so after every step of a
run the stored signer is the one that the text denotes (`Call.trusts_run`). Whoever asks for the
settings is answered with the text itself, in lower case, and whatever succeeds on a signature has
presented one of this signer (`Call.trusted_signer_fixed`).
-/

namespace TokenCustody

variable {recover : Recovery} {context : Context} {sender message : String}
variable {s t : Store} {r : Response} {signer : EthAddress}

/-- The settings of a store name a trusted signer. -/
def Store.Trusts (s : Store) (signer : EthAddress) : Prop :=
  ∃ config, s.config = .ok config ∧ config.signer = signer.toList

/-- Settings with a trusted signer ask for the signatures of this signer. -/
theorem Config.Signed.recover_eq {config : Config} {digest : Word} {signature : Bytes}
    (h : config.Signed recover digest signature) (hsigner : config.signer = signer.toList) :
    recover digest signature = .ok signer := by
  obtain ⟨signer', hsigner', hrecover⟩ := h
  rw [signerAddress?, hsigner, Bytes.toVector?_toList] at hsigner'
  obtain rfl := Option.some.inj hsigner'
  exact hrecover

/-- **The question for the settings** is answered with the text of the trusted signer. -/
theorem Question.answer_config_of_trusts (h : s.Trusts signer) (source : BalanceSource)
    (context : Context) : ∃ answer, Question.config.answer source context s = .ok (.config answer) ∧
      answer.signer = signer.text := by
  obtain ⟨config, hconfig, hsigner⟩ := h
  have haddress : config.signerAddress? = some signer := by
    rw [Config.signerAddress?, hsigner, Bytes.toVector?_toList]
  refine ⟨⟨config.owner, signer.text, config.stablePercent, config.paused⟩, ?_, rfl⟩
  simp only [Question.answer, mapError_eq_ok, bind_eq_ok, pure_eq_ok]
  refine ⟨config, hconfig, _, ?_, rfl⟩
  rw [Question.configAnswer, haddress]

/-! ### What has been signed -/

/-- The digest that must have been signed for a posting, and the signature that is presented. -/
def Posting.signed? (context : Context) : Posting → Option (Word × Bytes)
  | .deposit d => some ((d.authorization context).signedDigest, d.consent.signature)
  | .release q => some ((Release.authorization context q.terms).signedDigest, q.signature)
  | .settlement _ | .withdrawal .. => none

/-- The digest that must have been signed for a command, and the signature that is presented. -/
def Command.signed? (context : Context) (sender : String) (c : Command) : Option (Word × Bytes) :=
  (c.posting? sender).bind (·.signed? context)

/-- A posting that succeeds has presented a signature of the trusted signer. -/
theorem Posting.recover_of_eq_ok {p : Posting} {digest : Word} {signature : Bytes}
    (h : (p.handle recover context sender).run.run s = (.ok r, t)) (hs : s.Trusts signer)
    (hsigned : p.signed? context = some (digest, signature)) :
    recover digest signature = .ok signer := by
  obtain ⟨config, hconfig, hsigner⟩ := hs
  cases p with
  | deposit d =>
    obtain ⟨rfl, rfl⟩ := Prod.mk.inj (Option.some.inj hsigned)
    obtain ⟨config', _, _, _, hconfig', -, -, hsigned', -⟩ := Deposit.book_eq_ok.mp h
    obtain rfl : config' = config := Except.ok.inj (hconfig'.symm.trans hconfig)
    exact hsigned'.recover_eq hsigner
  | release q =>
    obtain ⟨rfl, rfl⟩ := Prod.mk.inj (Option.some.inj hsigned)
    obtain ⟨config', _, _, hconfig', -, -, hsigned', -⟩ := Release.present_eq_ok.mp h
    obtain rfl : config' = config := Except.ok.inj (hconfig'.symm.trans hconfig)
    exact hsigned'.recover_eq hsigner
  | settlement | withdrawal => cases hsigned

namespace Command

variable {c : Command}

/-- No command revises the signer. -/
theorem signer_revise (c : Command) (sender : String) (config : Config) :
    (c.revise sender config).signer = config.signer := by
  cases c <;> rfl

/-- **A command that presents a signature** and succeeds has presented one of the trusted signer,
over the digest that is made of the command itself. -/
theorem recover_of_eq_ok (h : (c.handle recover context sender).run.run s = (.ok r, t))
    (hs : s.Trusts signer) (hc : c.IsSigned) :
    ∃ digest signature, c.signed? context sender = some (digest, signature) ∧
      recover digest signature = .ok signer := by
  have hposting : ∃ p, c.posting? sender = some p ∧ (p.signed? context).isSome := by
    cases c with
    | receive notice =>
      obtain ⟨d, hd, -⟩ := Handler.host_bind_eq_ok.mp h
      exact ⟨.deposit d, posting?_receive hd, rfl⟩
    | bridgeIn | transferOut => exact ⟨_, rfl, rfl⟩
    | _ => exact hc.elim
  obtain ⟨p, hp, hsome⟩ := hposting
  obtain ⟨⟨digest, signature⟩, hsigned⟩ := Option.isSome_iff_exists.mp hsome
  rw [run_handle_of_posting hp] at h
  refine ⟨digest, signature, ?_, Posting.recover_of_eq_ok h hs hsigned⟩
  rw [signed?, hp]
  exact hsigned

end Command

/-! ### Calls and runs -/

namespace Call

variable {call : Call} {failing later : List Call}

/-- An instantiation that succeeds names the trusted signer. -/
theorem trusts_of_instantiate
    (h : ((Call.instantiate context sender message).perform recover s).1.isOk = true) :
    ∃ m : Instantiation, ∃ signer, Schema.instantiation.read message = .ok m ∧
      EthAddress.parse m.signer = .ok signer ∧
      ((Call.instantiate context sender message).perform recover s).2.Trusts signer := by
  obtain ⟨r, t, hperform, hrun⟩ := exists_run_of_isOk h
  rw [hperform]
  obtain ⟨m, hmessage, hm⟩ := Handler.host_bind_eq_ok.mp hrun
  obtain ⟨_, signer, -, hsigner, -, -, rfl⟩ := Instantiation.handle_eq_ok.mp hm
  exact ⟨m, signer, hmessage, mapError_eq_ok.mp hsigner, _, Store.config_save .., rfl⟩

/-- **A call that does not set the bridge up** leaves the trusted signer as it is. -/
theorem trusts_perform (recover : Recovery) (hcall : ¬ call.IsInstantiation)
    (h : s.Trusts signer) : (call.perform recover s).2.Trusts signer := by
  rw [perform]
  rcases hrun : (call.handle recover).run.run s with ⟨failure | r, t⟩
  · exact h
  obtain ⟨config, hconfig, hsigner⟩ := h
  cases call with
  | instantiate => exact absurd trivial hcall
  | migrate context message =>
    have hagrees := agreesOutside_of_eq_ok hrun
    exact ⟨config, (hagrees.config_eq (by simp [footprint])).trans hconfig, hsigner⟩
  | execute context sender message =>
    obtain ⟨c, -, hc⟩ := Handler.host_bind_eq_ok.mp hrun
    obtain ⟨-, ⟨config', hconfig', hafter⟩, -⟩ := Command.footprint_of_eq_ok hc
    obtain rfl : config' = config := Except.ok.inj (hconfig'.symm.trans hconfig)
    exact ⟨_, hafter, (c.signer_revise sender config').trans hsigner⟩

theorem trusts_run (recover : Recovery) (hlater : ∀ call ∈ later, ¬ call.IsInstantiation)
    (h : s.Trusts signer) : (run recover later s).Trusts signer := by
  induction later generalizing s with
  | nil => exact h
  | cons call later ih =>
    obtain ⟨hcall, hrest⟩ := List.forall_mem_cons.mp hlater
    exact ih hrest (trusts_perform recover hcall h)

/-- What the trusted signer has signed for a call: the digest for its command, and the signature
that is presented. -/
def signed? : Call → Option (Word × Bytes)
  | .execute context sender message =>
    (Schema.command.read message).toOption.bind fun c : Command => c.signed? context sender
  | .instantiate .. | .migrate .. => none

/-- A call has presented a signature of the trusted signer, over the digest for its command. -/
def PresentsSignatureOf (recover : Recovery) (signer : EthAddress) (call : Call) : Prop :=
  ∃ digest signature, call.signed? = some (digest, signature) ∧
    recover digest signature = .ok signer

theorem presentsSignatureOf_of_isOk (hs : s.Trusts signer) (hcall : call.IsSigned)
    (h : (call.perform recover s).1.isOk = true) : call.PresentsSignatureOf recover signer := by
  cases call with
  | instantiate | migrate => exact hcall.elim
  | execute context sender message =>
    obtain ⟨c, hread, hc⟩ := hcall
    obtain ⟨r, t, -, hrun⟩ := exists_run_of_isOk h
    rw [run_handle_of_read hread] at hrun
    obtain ⟨digest, signature, hsigned, hrecover⟩ := Command.recover_of_eq_ok hrun hs hc
    refine ⟨digest, signature, ?_, hrecover⟩
    rw [signed?, hread]
    exact hsigned

/-- All signatures on which a run without instantiations succeeds are the trusted signer's. -/
theorem presentsSignatureOf_of_mem_history {turn : Turn}
    (hlater : ∀ call ∈ later, ¬ call.IsInstantiation) (hs : s.Trusts signer)
    (hturn : turn ∈ history recover later s) (hsigned : turn.call.IsSigned)
    (hok : turn.outcome.isOk = true) : turn.call.PresentsSignatureOf recover signer := by
  induction later generalizing s with
  | nil => cases hturn
  | cons call later ih =>
    obtain ⟨hcall, hrest⟩ := List.forall_mem_cons.mp hlater
    rcases List.mem_cons.mp hturn with rfl | hturn
    · exact presentsSignatureOf_of_isOk hs hsigned hok
    · exact ih hrest (trusts_perform recover hcall hs) hturn

/-- **The trusted signer is fixed when the bridge is set up.** In every run from the empty store
whose first call to succeed sets the bridge up, and which does not set it up again, the
instantiation names a signer by forty hexadecimal digits; after each step from then on, the stored
signer is the one that these digits denote, and the question for the settings is answered with these
digits in lower case behind the mark; and every deposit and every signed release that succeeds
anywhere in the run has presented a signature of this signer over the digest that is made of the
call itself. -/
theorem trusted_signer_fixed
    (hfailing : ∀ turn ∈ history recover failing ∅, turn.outcome.isOk = false)
    (hfounding : ((Call.instantiate context sender message).perform recover ∅).1.isOk = true)
    (hlater : ∀ call ∈ later, ¬ call.IsInstantiation) :
    let founding := Call.instantiate context sender message
    ∃ m : Instantiation, ∃ signer : EthAddress, Schema.instantiation.read message = .ok m ∧
      let digits := EthAddress.unmarked m.signer.toList
      digits.length = 40 ∧ Hex.ofDigits? digits = some signer.toList ∧
      (∀ front, front <+: later →
        let s := run recover (failing ++ founding :: front) ∅
        s.Trusts signer ∧ ∀ source asked, ∃ answer,
          Question.config.answer source asked s = .ok (.config answer) ∧
            answer.signer = "0x" ++ String.ofList (digits.map Char.toLower)) ∧
      ∀ turn ∈ history recover (failing ++ founding :: later) ∅,
        turn.call.IsSigned → turn.outcome.isOk = true →
          turn.call.PresentsSignatureOf recover signer := by
  intro founding
  obtain ⟨m, signer, hmessage, hparse, hfounded⟩ := trusts_of_instantiate hfounding
  refine ⟨m, signer, hmessage, EthAddress.length_of_parse hparse,
    EthAddress.ofDigits?_of_parse hparse, fun front hfront => ?_, fun turn hturn hsigned hok => ?_⟩
  · intro s
    have hs : s.Trusts signer := by
      change (run recover (failing ++ founding :: front) ∅).Trusts signer
      rw [run_append_of_fails hfailing, run_cons]
      exact trusts_run recover (fun call hcall => hlater call (hfront.subset hcall)) hfounded
    refine ⟨hs, fun source asked => ?_⟩
    obtain ⟨answer, hanswer, htext⟩ := Question.answer_config_of_trusts hs source asked
    exact ⟨answer, hanswer, htext.trans (EthAddress.text_of_parse hparse)⟩
  · rw [history_append_of_fails hfailing] at hturn
    -- the turn stands among those that fail, sets the bridge up, or comes later
    rcases List.mem_append.mp hturn with hturn | hturn
    · rw [hfailing turn hturn] at hok
      cases hok
    rcases List.mem_cons.mp hturn with rfl | hturn
    · exact hsigned.elim
    · exact presentsSignatureOf_of_mem_history hlater hfounded hturn hsigned hok

/-- A bridge that somebody has tried to migrate too early is set up with a signer in digits of
either case, and then paused. -/
theorem trusted_signer_fixed_of_mixed_case :
    let context : Context := ⟨0, "network", "bridge"⟩
    let setup : Instantiation := ⟨none, "0XABabababababababababababababababababABAB", none⟩
    let failing : List Call := [.migrate context ""]
    let founding := Call.instantiate context "founder" (writeJson setup)
    let later : List Call := [.execute context "founder" (writeJson Command.pause)]
    let recover := Signature.recovery
    let s := run recover (failing ++ founding :: later) ∅
    (∀ turn ∈ history recover failing ∅, turn.outcome.isOk = false) ∧
      (founding.perform recover ∅).1.isOk = true ∧ (∀ call ∈ later, ¬ call.IsInstantiation) ∧
      s.Trusts (Vector.replicate 20 0xab) ∧
      ∃ answer, Question.config.answer (fun _ _ => .noContract) context s = .ok (.config answer) ∧
        answer.signer = "0xabababababababababababababababababababab" := by
  intro context setup failing founding later recover s
  have hread : Schema.instantiation.read (writeJson setup) = .ok setup :=
    Schema.read_writeJson _ setup
  have hfailing : ∀ turn ∈ history recover failing ∅, turn.outcome.isOk = false := by
    decide +kernel
  have hsetup : setup.signerIdentity = .ok (Vector.replicate 20 0xab) := by decide +kernel
  obtain ⟨r, hperform⟩ :=
    exists_perform_instantiation (m := setup) rfl hsetup (by decide) recover context ∅
  have hfounding : (founding.perform recover ∅).1.isOk = true := by
    rw [hperform]
    rfl
  have hlater : ∀ call ∈ later, ¬ call.IsInstantiation := by decide
  obtain ⟨m, signer, hm, -, hdigits, hstores, -⟩ :=
    trusted_signer_fixed hfailing hfounding hlater
  obtain rfl : m = setup := Except.ok.inj (hm.symm.trans hread)
  have hbytes : Hex.ofDigits? (EthAddress.unmarked setup.signer.toList) =
      some (Vector.replicate 20 0xab).toList := by
    decide +kernel
  obtain rfl : signer = Vector.replicate 20 0xab :=
    Vector.toList_inj.mp (Option.some.inj (hdigits.symm.trans hbytes))
  obtain ⟨hs, hanswers⟩ := hstores later (List.prefix_refl later)
  obtain ⟨answer, hanswer, hsigner⟩ := hanswers (fun _ _ => .noContract) context
  exact ⟨hfailing, hfounding, hlater, hs, answer, hanswer, hsigner.trans (by decide +kernel)⟩

end Call

end TokenCustody
