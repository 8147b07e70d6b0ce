import TokenCustody.Proofs.Digests
import TokenCustody.Proofs.History

/-!
# What a paused bridge refuses

A paused bridge refuses the commands that present a signature, so no sequence of them changes
anything (`Call.run_of_paused`). That it is paused is the first thing that a deposit or a release is
told, before anything that may be wrong with its terms, its time, its nonce or its signature
(`Handler.run_of_paused`). A deposit that a token contract reports has to be read out of its notice
first, though, which is done in front of the settings. So a notice that cannot be read is refused
for what is wrong with it (`TokenNotice.fault?`), on a paused bridge as on any other, and this is
the only exception (`Call.paused_reported_first`).
-/

namespace TokenCustody

variable {recover : Recovery} {context : Context} {sender : String} {s : Store} {config : Config}

/-! ### Notices -/

/-- What is wrong with a notice of tokens, if anything is: the account that the tokens come from has
no address, or else the message that comes along is no hook. -/
def TokenNotice.fault? (notice : TokenNotice) : Option HostError :=
  match Address.fault? notice.sender, Hook.read? notice.message with
  | some fault, _ => some (.address fault)
  | none, none => some (.malformed .hook)
  | none, some _ => none

theorem TokenNotice.fault?_eq_none {notice : TokenNotice} : notice.fault? = none ↔
    Address.IsValid notice.sender ∧ ∃ hook, Hook.read? notice.message = some hook := by
  rw [fault?, Address.IsValid]
  cases Address.fault? notice.sender <;> cases Hook.read? notice.message <;> simp

namespace Deposit

variable {token : String} {notice : TokenNotice}

/-- A notice that reports no deposit is refused for what is wrong with it, whatever the token is. -/
theorem ofNotice_eq_error {cause : HostError} :
    ofNotice token notice = .error cause ↔ notice.fault? = some cause := by
  rw [ofNotice, Address.check, ← Hook.read?, TokenNotice.fault?]
  rcases Address.fault? notice.sender with _ | fault
  · rcases Hook.read? notice.message with _ | ⟨⟨consent⟩⟩
    · exact (Except.error.injEq ..).to_iff.trans (Option.some.injEq ..).to_iff.symm
    · constructor <;> rintro ⟨⟩
  · exact (Except.error.injEq ..).to_iff.trans (Option.some.injEq ..).to_iff.symm

theorem exists_ofNotice (token : String) (h : notice.fault? = none) :
    ∃ d, ofNotice token notice = .ok d := by
  cases hnotice : ofNotice token notice with
  | ok d => exact ⟨d, rfl⟩
  | error cause => cases h.symm.trans (ofNotice_eq_error.mp hnotice)

end Deposit

/-! ### Handlers -/

/-- Behind the check that the bridge is running, nothing is done on a paused one. -/
theorem Handler.run_of_paused {α : Type} {f : Config → Handler α} (hconfig : s.config = .ok config)
    (hpaused : config.paused = true) :
    (do
      let config ← ask Store.config
      require (!config.paused) .bridgePaused
      f config : Handler α).run.run s = (.error (.rejected .bridgePaused), s) := by
  rw [run_bind_of_ok (ask_eq_ok.mpr ⟨hconfig, rfl⟩)]
  refine run_bind_of_error ?_
  rw [run_require, if_neg (by simp [hpaused])]

theorem Deposit.run_book_of_paused (hconfig : s.config = .ok config)
    (hpaused : config.paused = true) (d : Deposit) :
    (d.book recover context).run.run s = (.error (.rejected .bridgePaused), s) := by
  rw [book]
  exact Handler.run_of_paused hconfig hpaused

theorem Release.run_present_of_paused (hconfig : s.config = .ok config)
    (hpaused : config.paused = true) (q : ReleaseRequest) :
    (present recover context q).run.run s = (.error (.rejected .bridgePaused), s) := by
  rw [present]
  exact Handler.run_of_paused hconfig hpaused

/-! ### Commands and calls -/

namespace Command

variable {c : Command}

/-- What is wrong with a command before its request can be looked at. Only a deposit that a token
contract reports has a wrapping of its own. -/
def fault? : Command → Option HostError
  | .receive notice => notice.fault?
  | _ => none

/-- Why a paused bridge refuses a command that presents a signature. -/
def refusalOfPaused (c : Command) : Rejection :=
  match c.fault? with
  | some cause => .host cause
  | none => .bridgePaused

theorem fault?_eq_none : c.fault? = none ↔ ∀ notice, c = .receive notice →
    Address.IsValid notice.sender ∧ ∃ hook, Hook.read? notice.message = some hook := by
  cases c with
  | receive notice =>
    refine TokenNotice.fault?_eq_none.trans ⟨?_, fun h => h notice rfl⟩
    rintro h _ ⟨rfl⟩
    exact h
  | _ => exact ⟨fun _ => nofun, fun _ => rfl⟩

/-- **A paused bridge refuses what presents a signature**, and leaves the store as it was. -/
theorem run_handle_of_paused (hconfig : s.config = .ok config) (hpaused : config.paused = true)
    (hc : c.IsSigned) :
    (c.handle recover context sender).run.run s = (.error (.rejected c.refusalOfPaused), s) := by
  cases c with
  | bridgeIn request => exact Deposit.run_book_of_paused hconfig hpaused _
  | transferOut request => exact Release.run_present_of_paused hconfig hpaused request
  | receive notice =>
    rw [handle, refusalOfPaused, fault?]
    cases hfault : notice.fault? with
    | some cause =>
      refine Handler.run_bind_of_error ?_
      rw [Deposit.ofNotice_eq_error.mpr hfault]
      exact Handler.run_host (.error cause) s
    | none =>
      obtain ⟨d, hd⟩ := Deposit.exists_ofNotice sender hfault
      rw [Handler.run_bind_of_ok (Handler.host_eq_ok.mpr ⟨hd, rfl⟩)]
      exact Deposit.run_book_of_paused hconfig hpaused d
  | _ => exact hc.elim

end Command

namespace Call

variable {message : String} {c : Command}

/-- What a paused bridge answers to a command that presents a signature. -/
theorem perform_of_paused (hconfig : s.config = .ok config) (hpaused : config.paused = true)
    (hread : Schema.command.read message = .ok c) (hc : c.IsSigned) :
    (Call.execute context sender message).perform recover s =
      (.error (.rejected c.refusalOfPaused), s) := by
  rw [perform, run_handle_of_read hread, Command.run_handle_of_paused hconfig hpaused hc]

/-- **A paused bridge stands still** under commands that present a signature. -/
theorem run_of_paused {calls : List Call} (hconfig : s.config = .ok config)
    (hpaused : config.paused = true) (hcalls : ∀ call ∈ calls, call.IsSigned) :
    run recover calls s = s := by
  induction calls with
  | nil => rfl
  | cons call calls ih =>
    obtain ⟨hcall, hrest⟩ := List.forall_mem_cons.mp hcalls
    cases call with
    | instantiate | migrate => exact hcall.elim
    | execute context sender message =>
      obtain ⟨c, hread, hc⟩ := hcall
      rw [run_cons, perform_of_paused hconfig hpaused hread hc]
      exact ih hrest

/-- A bridge that has been set up can be paused at once, by its first owner. -/
theorem config_run_pause {owner : String} {m : Instantiation} {signer : EthAddress}
    (howner : m.ownerOr sender = .ok owner) (hsigner : m.signerIdentity = .ok signer)
    (hpercent : m.stablePercent.getD Commission.defaultStablePercent ≤ maxStablePercent) :
    let founding := Call.instantiate context sender (writeJson m)
    let pause := Call.execute context owner (writeJson Command.pause)
    let stablePercent := m.stablePercent.getD Commission.defaultStablePercent
    (run recover [founding, pause] ∅).config =
      .ok ⟨owner, signer.toList, stablePercent, true⟩ := by
  intro founding pause stablePercent
  let founded := run recover [founding] ∅
  obtain ⟨hconfig, -⟩ : founded.config = .ok ⟨owner, signer.toList, stablePercent, false⟩ ∧
      (∅ : Store).SameBooks founded := run_instantiation howner hsigner hpercent
  have hperform : pause.perform recover founded = (.ok _, _) :=
    perform_eq_ok.mpr (Handler.host_bind_eq_ok.mpr ⟨Command.pause, Schema.read_writeJson _ _,
      Administration.setPaused_eq_ok.mpr ⟨_, hconfig, rfl, nofun, rfl, rfl⟩⟩)
  have hrun : run recover [founding, pause] ∅ = (pause.perform recover founded).2 :=
    run_concat [founding] pause ∅
  rw [hrun, hperform]
  exact Store.config_save ..

/-- **That the bridge is paused is reported first**, of every deposit and signed release that can be
read: whatever else is wrong with it, it is refused as paused, and nothing is written. A deposit in
a notice of tokens can be read if the account that the tokens come from has an address and the
message that comes along is a hook; otherwise the notice is refused for that. -/
theorem paused_reported_first (recover : Recovery) (context : Context) (sender : String)
    (hconfig : s.config = .ok config) (hpaused : config.paused = true)
    (hread : Schema.command.read message = .ok c) (hc : c.IsSigned) :
    let outcome := (Call.execute context sender message).perform recover s
    (outcome = (.error (.rejected .bridgePaused), s) ↔ ∀ notice, c = .receive notice →
      Address.IsValid notice.sender ∧ ∃ hook, Hook.read? notice.message = some hook) ∧
    ∀ notice cause, c = .receive notice → notice.fault? = some cause →
      outcome = (.error (.rejected (.host cause)), s) := by
  intro outcome
  have houtcome : outcome = (.error (.rejected c.refusalOfPaused), s) :=
    perform_of_paused hconfig hpaused hread hc
  rw [houtcome, ← Command.fault?_eq_none, Command.refusalOfPaused]
  refine ⟨?_, ?_⟩
  · cases c.fault? <;> simp
  · rintro notice cause rfl hfault
    rw [Command.fault?, hfault]

/-- A deposit without a token, a destination or an amount, whose time is over, on a bridge that has
just been paused. -/
theorem paused_reported_first_of_empty_deposit :
    let context : Context := ⟨1, "network", "bridge"⟩
    let signer : EthAddress := Vector.replicate 20 1
    let setup : Instantiation := ⟨none, signer.text, none⟩
    let founding := Call.instantiate context "founder" (writeJson setup)
    let pause := Call.execute context "founder" (writeJson Command.pause)
    let c : Command := .bridgeIn ⟨"", 0, ⟨⟨0, "", "", 0, 0, 0⟩, []⟩⟩
    let recover := Signature.recovery
    let s := run recover [founding, pause] ∅
    ∃ config, s.config = .ok config ∧ config.paused = true ∧
      Schema.command.read (writeJson c) = .ok c ∧ c.IsSigned ∧
      (Call.execute context "user" (writeJson c)).perform recover s =
        (.error (.rejected .bridgePaused), s) := by
  intro context signer setup founding pause c recover s
  have hconfig : s.config = .ok ⟨"founder", signer.toList, 400, true⟩ :=
    config_run_pause rfl (by decide +kernel) (by decide)
  have hread : Schema.command.read (writeJson c) = .ok c := Schema.read_writeJson _ c
  obtain ⟨hpaused, -⟩ :=
    paused_reported_first recover context "user" hconfig rfl hread trivial
  have hnotice (notice : TokenNotice) (hc : c = .receive notice) :
      Address.IsValid notice.sender ∧ ∃ hook, Hook.read? notice.message = some hook :=
    Command.noConfusion hc
  exact ⟨_, hconfig, rfl, hread, trivial, hpaused.mpr hnotice⟩

/-- A notice that comes with an empty message is not told that the bridge is paused. -/
theorem paused_not_reported_of_empty_message :
    let context : Context := ⟨0, "network", "bridge"⟩
    let signer : EthAddress := Vector.replicate 20 1
    let setup : Instantiation := ⟨none, signer.text, none⟩
    let founding := Call.instantiate context "founder" (writeJson setup)
    let pause := Call.execute context "founder" (writeJson Command.pause)
    let c : Command := .receive ⟨"user", ⟨5, by decide⟩, []⟩
    let recover := Signature.recovery
    let s := run recover [founding, pause] ∅
    let outcome := ((Call.execute context "token" (writeJson c)).perform recover s).1
    (∃ config, s.config = .ok config ∧ config.paused = true) ∧
      outcome = .error (.rejected (.host (.malformed .hook))) ∧
      outcome ≠ .error (.rejected .bridgePaused) := by
  intro context signer setup founding pause c recover s outcome
  have hconfig : s.config = .ok ⟨"founder", signer.toList, 400, true⟩ :=
    config_run_pause rfl (by decide +kernel) (by decide)
  have hread : Schema.command.read (writeJson c) = .ok c := Schema.read_writeJson _ c
  have hrefusal : c.refusalOfPaused = .host (.malformed .hook) := by decide +kernel
  have houtcome : outcome = .error (.rejected (.host (.malformed .hook))) := by
    rw [← hrefusal]
    exact congrArg Prod.fst (perform_of_paused hconfig rfl hread trivial)
  refine ⟨⟨_, hconfig, rfl⟩, houtcome, ?_⟩
  rw [houtcome]
  exact nofun

end Call

end TokenCustody
