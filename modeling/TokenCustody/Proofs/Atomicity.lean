import TokenCustody.Proofs.Booking

/-!
# No command fails behind a write

The handlers of the commands check first and write last. The steps of the first part only read the
store (`Handler.ReadOnly`), and behind the first write the rest succeeds (`Handler.Succeeds`). One
step there looks at the store again, which is to spend an approval; but the pool that has been
stored in between stands under another key than the nonce (`Approval.succeeds_spend`). So a command
that fails leaves the store as it was (`Command.atomic_handle`, `Command.no_failure_behind_write`),
before `Call.perform` takes anything back (`Call.perform_execute`). To set a bridge up is not like
this: it writes first and may still be refused (`Instantiation.store_of_error`).
-/

namespace TokenCustody

namespace Handler

/-- A handler writes nothing, however it ends. -/
def ReadOnly {α : Type} (h : Handler α) : Prop :=
  ∀ s : Store, (h.run.run s).2 = s

/-- A handler succeeds on a store. -/
def Succeeds {α : Type} (h : Handler α) (s : Store) : Prop :=
  ∃ a t, h.run.run s = (.ok a, t)

/-- If a handler fails on a store, it leaves the store as it was. -/
def Atomic {α : Type} (h : Handler α) (s : Store) : Prop :=
  ∀ failure t, h.run.run s = (.error failure, t) → t = s

variable {α β : Type} {h : Handler α} {f : α → Handler β} {s : Store}

/-! ### Steps that only read -/

namespace ReadOnly

theorem pure (a : α) : (Pure.pure a : Handler α).ReadOnly :=
  fun _ => rfl

theorem reject (cause : Rejection) : (Handler.reject cause : Handler α).ReadOnly :=
  fun _ => rfl

theorem require (p : Prop) [Decidable p] (cause : Rejection) :
    (Handler.require p cause).ReadOnly :=
  fun s => by rw [run_require]

theorem accept (x : Except Rejection α) : (Handler.accept x).ReadOnly :=
  fun s => by rw [run_accept]

theorem result (x : Except (Failure Rejection) α) : (Handler.result x).ReadOnly :=
  fun s => by rw [run_result]

theorem host (x : Except HostError α) : (Handler.host x).ReadOnly :=
  fun s => by rw [run_host]

theorem ask (question : Store → Except HostError α) : (Handler.ask question).ReadOnly :=
  fun s => by rw [run_ask]

theorem bind (hh : h.ReadOnly) (hf : ∀ a, (f a).ReadOnly) : (h >>= f).ReadOnly := by
  intro s
  have hfirst := hh s
  rw [run_bind]
  rcases hrun : h.run.run s with ⟨failure | a, t⟩
  · rw [hrun] at hfirst
    exact hfirst
  · rw [hrun] at hfirst
    obtain rfl : t = s := hfirst
    exact hf a t

theorem map (f : α → β) (hh : h.ReadOnly) : (f <$> h).ReadOnly := by
  intro s
  rw [run_map]
  exact hh s

theorem atomic (hh : h.ReadOnly) (s : Store) : h.Atomic s := by
  intro failure t hrun
  have ht := hh s
  rw [hrun] at ht
  exact ht

/-- **Behind a step that only reads**, what matters is how the work goes on from the same store. -/
theorem bind_atomic (hh : h.ReadOnly) (hf : ∀ a, h.run.run s = (.ok a, s) → (f a).Atomic s) :
    (h >>= f).Atomic s := by
  intro failure u hfails
  have hfirst := hh s
  rcases bind_eq_error.mp hfails with hrun | ⟨a, t, hrun, hrest⟩
  · rw [hrun] at hfirst
    exact hfirst
  · rw [hrun] at hfirst
    obtain rfl : t = s := hfirst
    exact hf a hrun failure u hrest

end ReadOnly

/-! ### Steps that succeed -/

namespace Succeeds

theorem pure (a : α) (s : Store) : (Pure.pure a : Handler α).Succeeds s :=
  ⟨a, s, rfl⟩

theorem save [Codec α] (slot : Slot α) (a : α) (s : Store) : (Handler.save slot a).Succeeds s :=
  ⟨(), s.save slot a, rfl⟩

theorem remove (slot : Slot α) (s : Store) : (Handler.remove slot).Succeeds s :=
  ⟨(), s.remove slot, rfl⟩

theorem bind (hh : h.Succeeds s) (hf : ∀ a t, h.run.run s = (.ok a, t) → (f a).Succeeds t) :
    (h >>= f).Succeeds s := by
  obtain ⟨a, t, hrun⟩ := hh
  obtain ⟨b, u, hrest⟩ := hf a t hrun
  exact ⟨b, u, bind_eq_ok.mpr ⟨a, t, hrun, hrest⟩⟩

theorem atomic (hh : h.Succeeds s) : h.Atomic s := by
  intro failure t hfails
  obtain ⟨a, t', hrun⟩ := hh
  rw [hrun] at hfails
  cases hfails

end Succeeds

/-- **Behind a step that may have written**, the rest must succeed. -/
theorem Atomic.bind_succeeds (hh : h.Atomic s)
    (hf : ∀ a t, h.run.run s = (.ok a, t) → (f a).Succeeds t) : (h >>= f).Atomic s := by
  intro failure u hfails
  rcases bind_eq_error.mp hfails with hrun | ⟨a, t, hrun, hrest⟩
  · exact hh failure u hrun
  · obtain ⟨b, v, hsucceeds⟩ := hf a t hrun
    cases hsucceeds.symm.trans hrest

theorem atomic_storePool (token : String) (p : Pool) (s : Store) :
    (storePool token p).Atomic s :=
  (ReadOnly.accept p.checkSolvent).bind_atomic fun _ _ => (Succeeds.save (.pool token) p s).atomic

/-- Booking writes only what it has accepted. -/
theorem atomic_book (token : String) (action : PoolAction Unit) (s : Store) :
    (book token action).Atomic s := by
  refine (ReadOnly.ask (·.pool token)).bind_atomic fun p _ => ?_
  rcases action.run.run p with ⟨outcome, q⟩
  refine (ReadOnly.accept outcome).bind_atomic fun _ _ => ?_
  exact (atomic_storePool token q s).bind_succeeds fun _ t _ => Succeeds.pure q t

end Handler

open Handler (ReadOnly Succeeds)

variable {recover : Recovery} {context : Context} {sender : String} {s : Store}

namespace Approval

variable {trusted : EthAddress} {digest : Word} {signature : Bytes} {nonce : UInt64}

theorem readOnly_verify : (verify recover trusted digest signature nonce).ReadOnly := by
  refine (ReadOnly.ask (·.isUsed nonce)).bind fun used => ?_
  cases used with
  | true => exact ReadOnly.reject _
  | false =>
    refine (ReadOnly.accept (recover digest signature)).bind fun signer => ?_
    exact (ReadOnly.require (signer = trusted) _).bind fun _ => ReadOnly.pure _

/-- **An approval of an unused nonce can be spent** once a pool has been stored. -/
theorem succeeds_spend {a : Approval} (hunused : s.isUsed a.nonce = .ok false)
    (token : String) (p : Pool) : a.spend.Succeeds (s.save (.pool token) p) := by
  have hstill : (s.save (.pool token) p).isUsed a.nonce = .ok false :=
    (Store.isUsed_save_of_ne s (by simp) p).trans hunused
  exact ⟨a.nonce, _, spend_eq_ok.mpr ⟨hstill, rfl, rfl⟩⟩

/-- To book and then to spend an approval, which is how both uses of a signature end. -/
theorem atomic_book_spend {α : Type} {a : Approval}
    (h : (verify recover trusted digest signature nonce).run.run s = (.ok a, s))
    (token : String) (action : PoolAction Unit) (answer : UInt64 → α) :
    (do
      let _ ← Handler.book token action
      let nonce ← a.spend
      return answer nonce : Handler α).Atomic s := by
  refine (Handler.atomic_book token action s).bind_succeeds fun q t hbook => ?_
  obtain ⟨p, -, -, -, rfl⟩ := Handler.book_eq_ok.mp hbook
  obtain ⟨hunused, -, rfl, -⟩ := verify_eq_ok.mp h
  exact (succeeds_spend hunused token q).bind fun nonce t _ => Succeeds.pure (answer nonce) t

end Approval

namespace Release

theorem readOnly_asOwner : (asOwner sender).ReadOnly :=
  (ReadOnly.ask Store.config).bind fun config =>
    (ReadOnly.require (sender = config.owner) _).bind fun _ => ReadOnly.pure config

theorem readOnly_checkTerms (token recipient : String) (amount : Amount) :
    (checkTerms token recipient amount).ReadOnly :=
  (ReadOnly.require _ _).bind fun _ => (ReadOnly.require _ _).bind fun _ => ReadOnly.require _ _

theorem atomic_settle (q : Settlement) (s : Store) : (settle sender q).Atomic s := by
  refine readOnly_asOwner.bind_atomic fun _ _ => ?_
  refine (readOnly_checkTerms q.token q.recipient q.amount).bind_atomic fun _ _ => ?_
  exact (Handler.atomic_book q.token _ s).bind_succeeds fun _ t _ => Succeeds.pure _ t

theorem atomic_present (q : ReleaseRequest) (s : Store) :
    (present recover context q).Atomic s := by
  refine (ReadOnly.ask Store.config).bind_atomic fun config _ => ?_
  refine (ReadOnly.require _ _).bind_atomic fun _ _ => ?_
  refine (readOnly_checkTerms q.terms.token q.terms.recipient q.terms.amount).bind_atomic
    fun _ _ => ?_
  refine (ReadOnly.accept (context.refuseAfter q.terms.deadline)).bind_atomic fun _ _ => ?_
  refine (ReadOnly.accept config.signerIdentity).bind_atomic fun signer _ => ?_
  refine Approval.readOnly_verify.bind_atomic fun a ha => ?_
  exact Approval.atomic_book_spend ha q.terms.token _ _

theorem atomic_withdrawCommission (token : String) (amount : Amount) (s : Store) :
    (withdrawCommission sender token amount).Atomic s := by
  refine readOnly_asOwner.bind_atomic fun _ _ => ?_
  refine (ReadOnly.require _ _).bind_atomic fun _ _ => ?_
  exact (Handler.atomic_book token _ s).bind_succeeds fun _ t _ => Succeeds.pure _ t

end Release

theorem Deposit.atomic_book (d : Deposit) (s : Store) : (d.book recover context).Atomic s := by
  refine (ReadOnly.ask Store.config).bind_atomic fun config _ => ?_
  refine (ReadOnly.require _ _).bind_atomic fun _ _ => ?_
  refine (ReadOnly.require _ _).bind_atomic fun _ _ => ?_
  refine (ReadOnly.require _ _).bind_atomic fun _ _ => ?_
  refine (ReadOnly.require _ _).bind_atomic fun _ _ => ?_
  refine (ReadOnly.require _ _).bind_atomic fun _ _ => ?_
  refine (ReadOnly.accept (context.refuseAfter d.consent.terms.deadline)).bind_atomic fun _ _ => ?_
  refine (ReadOnly.accept config.signerIdentity).bind_atomic fun signer _ => ?_
  refine Approval.readOnly_verify.bind_atomic fun a ha => ?_
  -- the commission is computed before anything is written
  refine (ReadOnly.result _).bind_atomic fun commission _ => ?_
  exact Approval.atomic_book_spend ha d.token _ _

namespace Administration

theorem atomic_setStablePercent (percent : UInt64) (s : Store) :
    (setStablePercent sender percent).Atomic s := by
  refine Release.readOnly_asOwner.bind_atomic fun config _ => ?_
  refine (ReadOnly.accept (Commission.checkStablePercent percent)).bind_atomic fun _ _ => ?_
  exact ((Succeeds.save ..).bind fun _ t _ => Succeeds.pure _ t).atomic

theorem atomic_setPaused (paused : Bool) (s : Store) : (setPaused sender paused).Atomic s := by
  refine Release.readOnly_asOwner.bind_atomic fun config _ => ?_
  refine (ReadOnly.require _ _).bind_atomic fun _ _ => ?_
  exact ((Succeeds.save ..).bind fun _ t _ => Succeeds.pure _ t).atomic

theorem atomic_proposeOwner (newOwner : String) (s : Store) :
    (proposeOwner sender newOwner).Atomic s := by
  refine Release.readOnly_asOwner.bind_atomic fun _ _ => ?_
  refine (ReadOnly.host (Address.check newOwner)).bind_atomic fun _ _ => ?_
  exact ((Succeeds.save ..).bind fun _ t _ => Succeeds.pure _ t).atomic

theorem atomic_acceptOwnership (s : Store) : (acceptOwnership sender).Atomic s := by
  refine (ReadOnly.ask (·.load? .pendingOwner)).bind_atomic fun owner _ => ?_
  cases owner with
  | none => exact (ReadOnly.reject _).atomic s
  | some newOwner =>
    refine (ReadOnly.require (sender = newOwner) _).bind_atomic fun _ _ => ?_
    refine (ReadOnly.ask Store.config).bind_atomic fun config _ => ?_
    refine Succeeds.atomic ((Succeeds.save ..).bind fun _ t _ => ?_)
    exact (Succeeds.remove .pendingOwner t).bind fun _ u _ => Succeeds.pure _ u

theorem atomic_cancelProposal (s : Store) : (cancelProposal sender).Atomic s := by
  refine Release.readOnly_asOwner.bind_atomic fun _ _ => ?_
  refine (ReadOnly.ask (·.load? .pendingOwner)).bind_atomic fun owner _ => ?_
  cases owner with
  | none => exact (ReadOnly.reject _).atomic s
  | some newOwner =>
    exact ((Succeeds.remove ..).bind fun _ t _ => Succeeds.pure _ t).atomic

end Administration

/-- **A command that fails leaves the store as it was.** -/
theorem Command.atomic_handle (c : Command) (s : Store) :
    (c.handle recover context sender).Atomic s := by
  cases c with
  | bridgeIn request => exact (Deposit.ofRequest sender request).atomic_book s
  | receive notice =>
    exact (ReadOnly.host (Deposit.ofNotice sender notice)).bind_atomic fun d _ => d.atomic_book s
  | transferOut request => exact Release.atomic_present request s
  | bridgeOut settlement => exact Release.atomic_settle settlement s
  | withdrawCommission token amount => exact Release.atomic_withdrawCommission token amount s
  | setStableCommissionPercent percent => exact Administration.atomic_setStablePercent percent s
  | pause => exact Administration.atomic_setPaused true s
  | unpause => exact Administration.atomic_setPaused false s
  | proposeOwner newOwner => exact Administration.atomic_proposeOwner newOwner s
  | acceptOwnership => exact Administration.atomic_acceptOwnership s
  | cancelOwnershipProposal => exact Administration.atomic_cancelProposal s

/-- So nothing has to be taken back when a command fails, whatever the text of the message is. -/
theorem Call.perform_execute (recover : Recovery) (context : Context) (sender message : String)
    (s : Store) :
    (execute context sender message).perform recover s =
      ((execute context sender message).handle recover).run.run s := by
  have hatomic : ((execute context sender message).handle recover).Atomic s :=
    (ReadOnly.host (Schema.command.read message)).bind_atomic fun c _ => c.atomic_handle s
  rw [perform]
  rcases hrun : ((execute context sender message).handle recover).run.run s with ⟨failure | r, t⟩
  · rw [hatomic failure t hrun]
  · rfl

/-- To set a bridge up is different: the version is recorded first, and stays recorded when the
settings are refused. -/
theorem Instantiation.store_of_error {m : Instantiation} {failure : Failure Rejection} {t : Store}
    (h : (m.handle context sender).run.run s = (.error failure, t)) :
    t = s.save .version Version.current := by
  rw [handle, Handler.run_bind_of_done (Handler.run_save _ _ s)] at h
  refine (ReadOnly.host (m.ownerOr sender)).bind_atomic (fun owner _ => ?_) failure t h
  refine (ReadOnly.accept m.signerIdentity).bind_atomic fun signer _ => ?_
  refine (ReadOnly.accept _).bind_atomic fun _ _ => ?_
  exact ((Succeeds.save ..).bind fun _ u _ => Succeeds.pure _ u).atomic

/-- **No command fails behind a write**, on any store, whether a run leaves it or not: a command
that fails leaves every entry as it was, before anything is taken back, and a command that changes
an entry succeeds. In particular, an approval that has just been given can be spent on the store
that is left when a pool has been stored in between, for whatever token. -/
theorem Command.no_failure_behind_write (recover : Recovery) (context : Context) (sender : String)
    (c : Command) (s : Store) :
    let h := c.handle recover context sender
    (∀ failure t, h.run.run s = (.error failure, t) → ∀ key : Bytes, t[key]? = s[key]?) ∧
      (∀ outcome t, h.run.run s = (outcome, t) → (∃ key : Bytes, t[key]? ≠ s[key]?) →
        ∃ response, outcome = .ok response) ∧
      ∀ trusted digest signature nonce approval t,
        (Approval.verify recover trusted digest signature nonce).run.run s = (.ok approval, t) →
        ∀ token pool u, (Handler.storePool token pool).run.run t = (.ok (), u) →
          ∃ v, approval.spend.run.run u = (.ok nonce, v) := by
  intro h
  have hatomic : h.Atomic s := c.atomic_handle s
  refine ⟨fun failure t hfails key => ?_, fun outcome t hrun ⟨key, hkey⟩ => ?_, ?_⟩
  · rw [hatomic failure t hfails]
  · cases outcome with
    | ok response => exact ⟨response, rfl⟩
    | error failure =>
      cases hatomic failure t hrun
      exact absurd rfl hkey
  · intro trusted digest signature nonce approval t hverify token pool u hstore
    obtain ⟨hunused, -, rfl, rfl⟩ := Approval.verify_eq_ok.mp hverify
    obtain ⟨-, rfl⟩ := Handler.storePool_eq_ok.mp hstore
    obtain ⟨_, v, hspend⟩ := Approval.succeeds_spend (a := ⟨nonce⟩) hunused token pool
    obtain ⟨-, rfl, -⟩ := Approval.spend_eq_ok.mp hspend
    exact ⟨v, hspend⟩

/-- On the store on which no bridge has been set up, to pause is refused and leaves no entry; and an
approval is spent there behind the pool of a token that has the name under which nonces are kept. -/
theorem Command.no_failure_behind_write_of_empty :
    let trusted : EthAddress := Vector.replicate 20 1
    let recover : Recovery := fun _ _ => .ok trusted
    let context : Context := ⟨0, "network", "bridge"⟩
    let digest : Word := Vector.replicate 32 0
    let pool : Pool := ⟨⟨10, by decide⟩, ⟨4, by decide⟩⟩
    let stored : Store := (∅ : Store).save (.pool "used_nonces") pool
    (∃ failure t, (Command.pause.handle recover context "user").run.run ∅ = (.error failure, t) ∧
        ∀ key : Bytes, t[key]? = (∅ : Store)[key]?) ∧
      (Approval.verify recover trusted digest [] 7).run.run ∅ = (.ok ⟨7⟩, ∅) ∧
      (Handler.storePool "used_nonces" pool).run.run ∅ = (.ok (), stored) ∧
      ∃ v, (Approval.spend ⟨7⟩).run.run stored = (.ok 7, v) := by
  intro trusted recover context digest pool stored
  have hpause : (Command.pause.handle recover context "user").run.run ∅ =
      (.error (.rejected (.host .noConfig)), ∅) := by
    refine Handler.run_bind_of_error (Handler.run_bind_of_error ?_)
    rw [Handler.run_ask, Store.config_empty]
    rfl
  have hverify : (Approval.verify recover trusted digest [] 7).run.run ∅ = (.ok ⟨7⟩, ∅) :=
    Approval.verify_eq_ok.mpr ⟨Store.isUsed_empty 7, rfl, rfl, rfl⟩
  have hstore : (Handler.storePool "used_nonces" pool).run.run ∅ = (.ok (), stored) :=
    Handler.storePool_eq_ok.mpr ⟨by decide, rfl⟩
  obtain ⟨hkeeps, -, hspends⟩ :=
    no_failure_behind_write recover context "user" .pause ∅
  exact ⟨⟨_, _, hpause, hkeeps _ _ hpause⟩, hverify, hstore,
    hspends trusted digest [] 7 _ _ hverify "used_nonces" pool _ hstore⟩

end TokenCustody
