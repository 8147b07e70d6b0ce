import TokenCustody.Proofs.Administration
import TokenCustody.Proofs.Booking

/-!
# Postings

What a call asks of the books is a `Posting`: a deposit, a release by the owner or by the trusted
signer, or a withdrawal of commission. The commands of administration ask nothing of them, nor do
instantiations and migrations. A posting that is booked moves its amounts on the pool of its token,
by sums that are the same for all postings (`Posting.Booked`), consumes its nonce if it has one,
orders the tokens to be moved accordingly, and announces one movement. A call without a posting
leaves the books alone and orders nothing (`Call.sameBooks_of_eq_ok`).
-/

namespace TokenCustody

/-- What a call asks of the books. -/
inductive Posting where
  | deposit (d : Deposit)
  /-- A release by the owner. -/
  | settlement (q : Settlement)
  /-- A release by the trusted signer. -/
  | release (q : ReleaseRequest)
  /-- A withdrawal of commission. -/
  | withdrawal (token : String) (amount : Amount)
  deriving DecidableEq

namespace Posting

/-- The token whose pool is concerned. -/
def token : Posting → String
  | .deposit d => d.token
  | .settlement q => q.token
  | .release q => q.terms.token
  | .withdrawal token _ => token

/-- The nonce of what the trusted signer has signed. -/
def nonce? : Posting → Option UInt64
  | .deposit d => some d.consent.terms.nonce
  | .release q => some q.terms.nonce
  | .settlement _ | .withdrawal .. => none

/-- The amount that is deposited. -/
def deposited : Posting → ℕ
  | .deposit d => d.amount.val
  | _ => 0

/-- The commission on what is deposited, at a stable percentage. -/
def charged (percent : UInt64) : Posting → ℕ
  | .deposit d => Commission.share d.amount percent + d.consent.terms.gasCommission.val
  | _ => 0

/-- The amount that is released. -/
def released : Posting → ℕ
  | .settlement q => q.amount.val
  | .release q => q.terms.amount.val
  | _ => 0

/-- The commission that is withdrawn. -/
def withdrawn : Posting → ℕ
  | .withdrawal _ amount => amount.val
  | _ => 0

/-- The calls that move the tokens. -/
def calls (context : Context) (config : Config) : Posting → List TokenCall
  | .deposit d => d.calls context
  | .settlement q => [.ofOrder q.token (.transfer q.recipient q.amount)]
  | .release q => [.ofOrder q.terms.token (.transfer q.terms.recipient q.terms.amount)]
  | .withdrawal token amount => [.ofOrder token (.transfer config.owner amount)]

/-- The movement that is announced, with the commission that has been charged. -/
def movement (config : Config) (commission : Amount) : Posting → Movement
  | .deposit d => d.movement d.consent.terms.nonce config.stablePercent commission
  | .settlement q =>
    .fundsOut q.recipient q.token q.amount q.transactionId q.sourceChain q.sourceAddress
  | .release q =>
    .transferOut q.terms.recipient q.terms.transactionId q.terms.nonce q.terms.token
      q.terms.amount
  | .withdrawal token amount => .withdrawCommission token amount

/-- The store with a new pool of the token, and the nonce consumed if there is one. -/
def write (p : Posting) (s : Store) (pool : Pool) : Store :=
  match p.nonce? with
  | some n => (s.save (.pool p.token) pool).save (.nonce n) true
  | none => s.save (.pool p.token) pool

/-- The checks of what the trusted signer has signed, in front of the signature. -/
def Admissible (context : Context) (config : Config) : Posting → Prop
  | .deposit d => d.Admissible context config
  | .release q => q.Admissible context config
  | .settlement _ | .withdrawal .. => True

/-- Carries a posting out. -/
def handle (recover : Recovery) (context : Context) (sender : String) :
    Posting → Handler Response
  | .deposit d => d.book recover context
  | .settlement q => Release.settle sender q
  | .release q => Release.present recover context q
  | .withdrawal token amount => Release.withdrawCommission sender token amount

/-- A posting has taken one store to another by changing one pool into another. -/
structure Booked (p : Posting) (context : Context) (config : Config) (s : Store)
    (before after : Pool) (r : Response) (t : Store) : Prop where
  config_eq : s.config = .ok config
  before_eq : s.pool p.token = .ok before
  held_eq : after.held.val + p.released + p.withdrawn = before.held.val + p.deposited
  reserved_eq :
    after.reserved.val + p.withdrawn = before.reserved.val + p.charged config.stablePercent
  solvent : after.Solvent
  unused : ∀ n ∈ p.nonce?, s.isUsed n = .ok false
  calls_eq : r.calls = p.calls context config
  events_eq : ∃ commission : Amount, commission.val = p.charged config.stablePercent ∧
    r.events = [(p.movement config commission).event]
  store_eq : t = p.write s after

variable {recover : Recovery} {context : Context} {sender : String} {s t : Store} {r : Response}
variable {p : Posting}

/-- **A posting that succeeds has been booked.** -/
theorem exists_booked (h : (p.handle recover context sender).run.run s = (.ok r, t)) :
    ∃ config before after, p.Booked context config s before after r t := by
  -- one case for each handler; the amounts that a posting has no part in are zero
  cases p with
  | deposit d =>
    obtain ⟨config, commission, before, after, hconfig, -, hunused, -, hcommission, hbefore, hrun,
      rfl, rfl⟩ := Deposit.book_eq_ok.mp h
    obtain ⟨-, hheld, hreserved, hsolvent⟩ := PoolAction.deposit_eq_ok.mp hrun
    obtain ⟨htotal, -⟩ := Commission.total_eq_ok.mp hcommission
    refine ⟨config, before, after, ?_⟩
    exact {
      config_eq := hconfig
      before_eq := hbefore
      held_eq := hheld
      reserved_eq := hreserved.trans (congrArg (before.reserved.val + ·) htotal)
      solvent := hsolvent
      unused := fun n hn => Option.some.inj hn ▸ hunused
      calls_eq := rfl
      events_eq := ⟨commission, htotal, rfl⟩
      store_eq := rfl }
  | settlement q =>
    obtain ⟨config, before, after, hconfig, -, -, -, -, hbefore, hrun, rfl, rfl⟩ :=
      Release.settle_eq_ok.mp h
    obtain ⟨hheld, hreserved, hsolvent⟩ := PoolAction.release_eq_ok.mp hrun
    refine ⟨config, before, after, ?_⟩
    exact {
      config_eq := hconfig
      before_eq := hbefore
      held_eq := hheld
      reserved_eq := congrArg Amount.val hreserved
      solvent := hsolvent
      unused := nofun
      calls_eq := rfl
      events_eq := ⟨0, rfl, rfl⟩
      store_eq := rfl }
  | release q =>
    obtain ⟨config, before, after, hconfig, -, hunused, -, hbefore, hrun, rfl, rfl⟩ :=
      Release.present_eq_ok.mp h
    obtain ⟨hheld, hreserved, hsolvent⟩ := PoolAction.release_eq_ok.mp hrun
    refine ⟨config, before, after, ?_⟩
    exact {
      config_eq := hconfig
      before_eq := hbefore
      held_eq := hheld
      reserved_eq := congrArg Amount.val hreserved
      solvent := hsolvent
      unused := fun n hn => Option.some.inj hn ▸ hunused
      calls_eq := rfl
      events_eq := ⟨0, rfl, rfl⟩
      store_eq := rfl }
  | withdrawal token amount =>
    obtain ⟨config, before, after, hconfig, -, -, hbefore, hrun, rfl, rfl⟩ :=
      Release.withdrawCommission_eq_ok.mp h
    obtain ⟨hheld, hreserved, hsolvent⟩ := PoolAction.withdraw_eq_ok.mp hrun
    refine ⟨config, before, after, ?_⟩
    exact {
      config_eq := hconfig
      before_eq := hbefore
      held_eq := hheld
      reserved_eq := hreserved
      solvent := hsolvent
      unused := nofun
      calls_eq := rfl
      events_eq := ⟨0, rfl, rfl⟩
      store_eq := rfl }

/-- An admissible posting is refused if its nonce has been consumed. -/
theorem handle_of_isUsed {config : Config} {signer : EthAddress} {n : UInt64}
    (hconfig : s.config = .ok config) (hp : p.Admissible context config)
    (hsigner : config.signerAddress? = some signer) (hn : n ∈ p.nonce?)
    (hused : s.isUsed n = .ok true) :
    (p.handle recover context sender).run.run s =
      (.error (.rejected (.alreadyUsedSignature n)), s) := by
  cases p with
  | deposit d =>
    obtain rfl := Option.some.inj hn
    exact Deposit.book_of_isUsed hconfig hp hsigner hused
  | release q =>
    obtain rfl := Option.some.inj hn
    exact Release.present_of_isUsed hconfig hp hsigner hused
  | settlement q => cases hn
  | withdrawal token amount => cases hn

/-! ### What is written -/

theorem pool_write (p : Posting) (s : Store) (q : Pool) :
    (p.write s q).pool p.token = .ok q := by
  rw [write]
  split
  · rw [Store.pool_save_of_ne _ (by simp), Store.pool_save]
  · rw [Store.pool_save]

theorem pool_write_of_ne {token : String} (h : p.token ≠ token) (s : Store) (q : Pool) :
    (p.write s q).pool token = s.pool token := by
  rw [write]
  split
  · rw [Store.pool_save_of_ne _ (by simp), Store.pool_save_of_ne _ (by simpa using h)]
  · rw [Store.pool_save_of_ne _ (by simpa using h)]

theorem isUsed_write_of_mem {n : UInt64} (h : n ∈ p.nonce?) (s : Store) (q : Pool) :
    (p.write s q).isUsed n = .ok true := by
  rw [write, Option.mem_def.mp h]
  exact Store.isUsed_save _ n true

theorem isUsed_write_of_notMem {n : UInt64} (h : n ∉ p.nonce?) (s : Store) (q : Pool) :
    (p.write s q).isUsed n = s.isUsed n := by
  rw [write]
  split
  next m hm =>
    have hne : m ≠ n := fun hmn => h (hmn ▸ hm)
    rw [Store.isUsed_save_of_ne _ (by simpa using hne), Store.isUsed_save_of_ne _ (by simp)]
  next => rw [Store.isUsed_save_of_ne _ (by simp)]

/-- Nothing is written but a pool and the mark of a nonce. -/
theorem load?_write_of_ne {α : Type} [Codec α] {slot : Slot α}
    (hpool : ∀ token, slot.key ≠ .pool token) (hnonce : ∀ n, slot.key ≠ .nonce n) (p : Posting)
    (s : Store) (q : Pool) : (p.write s q).load? slot = s.load? slot := by
  have hsave : (s.save (.pool p.token) q).load? slot = s.load? slot :=
    Store.load?_save_of_key_ne s (hpool p.token).symm q
  rw [write]
  split
  next n _ => rw [Store.load?_save_of_key_ne _ (hnonce n).symm, hsave]
  next => exact hsave

theorem config_write (p : Posting) (s : Store) (q : Pool) : (p.write s q).config = s.config := by
  rw [Store.config, Store.config, load?_write_of_ne (by simp) (by simp)]

theorem load?_pendingOwner_write (p : Posting) (s : Store) (q : Pool) :
    (p.write s q).load? .pendingOwner = s.load? .pendingOwner :=
  load?_write_of_ne (by simp) (by simp) p s q

end Posting

/-! ### Calls -/

variable {recover : Recovery} {context : Context} {sender : String} {s t : Store} {r : Response}

namespace Command

/-- What a command asks of the books. A notice of tokens must be readable to ask anything. -/
def posting? (sender : String) : Command → Option Posting
  | .bridgeIn request => some (.deposit (.ofRequest sender request))
  | .receive notice => (Deposit.ofNotice sender notice).toOption.map .deposit
  | .transferOut request => some (.release request)
  | .bridgeOut settlement => some (.settlement settlement)
  | .withdrawCommission token amount => some (.withdrawal token amount)
  | .setStableCommissionPercent _ | .pause | .unpause => none
  | .proposeOwner _ | .acceptOwnership | .cancelOwnershipProposal => none

variable {c : Command}

/-- A notice that can be read asks for its deposit. -/
theorem posting?_receive {notice : TokenNotice} {d : Deposit}
    (h : Deposit.ofNotice sender notice = .ok d) :
    (Command.receive notice).posting? sender = some (.deposit d) := by
  rw [posting?, toOption_eq_some.mpr h]
  rfl

theorem run_handle_of_posting {p : Posting} (h : c.posting? sender = some p) :
    (c.handle recover context sender).run.run s =
      (p.handle recover context sender).run.run s := by
  cases c with
  | receive notice =>
    obtain ⟨d, hd, rfl⟩ := Option.map_eq_some_iff.mp h
    have hhost : (Handler.host (Deposit.ofNotice sender notice)).run.run s = (.ok d, s) :=
      Handler.host_eq_ok.mpr ⟨toOption_eq_some.mp hd, rfl⟩
    exact Handler.run_bind_of_ok hhost
  | bridgeIn | transferOut | bridgeOut | withdrawCommission =>
    obtain rfl := Option.some.inj h
    rfl
  | _ => cases h

theorem sameBooks_of_eq_ok (h : c.posting? sender = none)
    (hrun : (c.handle recover context sender).run.run s = (.ok r, t)) :
    s.SameBooks t ∧ r.calls = [] ∧ r.events = [] := by
  cases c with
  | receive notice =>
    obtain ⟨d, hd, -⟩ := Handler.host_bind_eq_ok.mp hrun
    rw [posting?_receive hd] at h
    cases h
  | bridgeIn | transferOut | bridgeOut | withdrawCommission => cases h
  | setStableCommissionPercent percent =>
    obtain ⟨config, -, -, -, rfl, rfl⟩ := Administration.setStablePercent_eq_ok.mp hrun
    exact ⟨(Store.SameBooks.refl s).save_config _, rfl, rfl⟩
  | pause | unpause =>
    obtain ⟨config, -, -, -, rfl, rfl⟩ := Administration.setPaused_eq_ok.mp hrun
    exact ⟨(Store.SameBooks.refl s).save_config _, rfl, rfl⟩
  | proposeOwner newOwner =>
    obtain ⟨config, -, -, -, rfl, rfl⟩ := Administration.proposeOwner_eq_ok.mp hrun
    exact ⟨(Store.SameBooks.refl s).save_pendingOwner newOwner, rfl, rfl⟩
  | acceptOwnership =>
    obtain ⟨config, -, -, rfl, rfl⟩ := Administration.acceptOwnership_eq_ok.mp hrun
    exact ⟨((Store.SameBooks.refl s).save_config _).remove_pendingOwner, rfl, rfl⟩
  | cancelOwnershipProposal =>
    obtain ⟨config, pending, -, -, -, rfl, rfl⟩ := Administration.cancelProposal_eq_ok.mp hrun
    exact ⟨(Store.SameBooks.refl s).remove_pendingOwner, rfl, rfl⟩

end Command

namespace Call

/-- What a call asks of the books. -/
def posting? : Call → Option Posting
  | .execute _ sender message =>
    (Schema.command.read message).toOption.bind fun c : Command => c.posting? sender
  | .instantiate .. | .migrate .. => none

variable {call : Call}

theorem posting?_of_read {message : String} {c : Command}
    (h : Schema.command.read message = .ok c) :
    (Call.execute context sender message).posting? = c.posting? sender := by
  rw [posting?, h]
  rfl

/-- A call succeeds exactly if its handler does, and leaves the store that the handler leaves. -/
theorem perform_eq_ok :
    call.perform recover s = (.ok r, t) ↔ (call.handle recover).run.run s = (.ok r, t) := by
  rw [perform]
  rcases (call.handle recover).run.run s with ⟨failure | response, store⟩
  · constructor <;> rintro ⟨⟩
  · exact Iff.rfl

theorem exists_run_of_isOk (h : (call.perform recover s).1.isOk = true) :
    ∃ r t, call.perform recover s = (.ok r, t) ∧ (call.handle recover).run.run s = (.ok r, t) := by
  rcases hperform : call.perform recover s with ⟨failure | r, t⟩
  · rw [hperform] at h
    cases h
  · exact ⟨r, t, rfl, perform_eq_ok.mp hperform⟩

/-- A call whose message is a command carries it out. -/
theorem run_handle_of_read {message : String} {c : Command}
    (h : Schema.command.read message = .ok c) :
    ((Call.execute context sender message).handle recover).run.run s =
      (c.handle recover context sender).run.run s := by
  have hread : (Handler.host (Schema.command.read message)).run.run s = (.ok c, s) :=
    Handler.host_eq_ok.mpr ⟨h, rfl⟩
  rw [handle, Handler.run_bind_of_ok hread]

/-- A call with a posting carries it out. -/
theorem run_handle_of_posting {message : String} {p : Posting}
    (h : (Call.execute context sender message).posting? = some p) :
    ((Call.execute context sender message).handle recover).run.run s =
      (p.handle recover context sender).run.run s := by
  obtain ⟨c, hc, hp⟩ := Option.bind_eq_some_iff.mp h
  rw [run_handle_of_read (toOption_eq_some.mp hc)]
  exact Command.run_handle_of_posting hp

/-- A call without a posting leaves the books alone, and orders and announces nothing. -/
theorem sameBooks_of_eq_ok (h : call.posting? = none)
    (hrun : (call.handle recover).run.run s = (.ok r, t)) :
    s.SameBooks t ∧ r.calls = [] ∧ r.events = [] := by
  cases call with
  | execute context sender message =>
    obtain ⟨c, hcommand, hc⟩ := Handler.host_bind_eq_ok.mp hrun
    rw [posting?, hcommand] at h
    exact Command.sameBooks_of_eq_ok h hc
  | instantiate context sender message =>
    obtain ⟨m, -, hm⟩ := Handler.host_bind_eq_ok.mp hrun
    obtain ⟨owner, signer, -, -, -, rfl, rfl⟩ := Instantiation.handle_eq_ok.mp hm
    exact ⟨((Store.SameBooks.refl s).save_version _).save_config _, rfl, rfl⟩
  | migrate context message =>
    obtain ⟨m, -, hm⟩ := Handler.host_bind_eq_ok.mp hrun
    obtain ⟨rfl, rfl⟩ := Migration.handle_eq_ok.mp hm
    exact ⟨(Store.SameBooks.refl s).save_version _, rfl, rfl⟩

/-- **What a call does to the books.** It fails and leaves the store as it was; or it asks nothing
of the books and leaves them alone; or its posting is booked. -/
theorem perform_cases (recover : Recovery) (call : Call) (s : Store) :
    (∃ failure, call.perform recover s = (.error failure, s)) ∨
      (∃ r t, call.perform recover s = (.ok r, t) ∧ call.posting? = none ∧ s.SameBooks t ∧
        r.calls = [] ∧ r.events = []) ∨
      ∃ p context config before after r t, call.perform recover s = (.ok r, t) ∧
        call.posting? = some p ∧ p.Booked context config s before after r t := by
  rw [perform]
  rcases hrun : (call.handle recover).run.run s with ⟨failure | r, t⟩
  -- whatever a failed call has written is not kept
  · exact .inl ⟨failure, rfl⟩
  cases hp : call.posting? with
  | none => exact .inr (.inl ⟨r, t, rfl, rfl, sameBooks_of_eq_ok hp hrun⟩)
  | some p =>
    cases call with
    | instantiate | migrate => cases hp
    | execute context sender message =>
      rw [run_handle_of_posting hp] at hrun
      obtain ⟨config, before, after, hbooked⟩ := Posting.exists_booked hrun
      exact .inr (.inr ⟨p, context, config, before, after, r, t, rfl, rfl, hbooked⟩)

end Call

end TokenCustody
