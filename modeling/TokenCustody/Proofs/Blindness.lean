import TokenCustody.Proofs.Booking

/-!
# What handlers do not see

Two stores may differ in ways that a handler takes no notice of. If the difference is described by a
relation on stores, then the handler is *blind* to it if from any two related stores it ends in the
same way, with the same answer or the same failure, and leaves related stores again
(`Handler.BlindTo`).

On its way a handler may read values that differ, such as settings with a field that does not matter
later on. So the judgment that carries the argument compares two handlers, and relates their
answers by a relation of its own (`Handler.Couples`); the rule for two steps in a row is
`Handler.Couples.bind`. What the steps of a handler ask of the relation is said slot by slot: that
related stores have the same in a slot, and stay related when the slot is written in both
(`Store.Shares`).
-/

namespace TokenCustody

variable {ε α β : Type}

/-! ### Results that match -/

/-- Two results are the same error, or values that are related. -/
inductive Matching (related : α → α → Prop) : Except ε α → Except ε α → Prop where
  | ok {a a' : α} (h : related a a') : Matching related (.ok a) (.ok a')
  | error (e : ε) : Matching related (.error e) (.error e)

namespace Matching

variable {related weaker : α → α → Prop} {x x' : Except ε α}

theorem refl (hrefl : ∀ a, x = .ok a → related a a) : Matching related x x := by
  cases x with
  | ok a => exact .ok (hrefl a rfl)
  | error e => exact .error e

theorem mono (h : Matching related x x') (himp : ∀ a a', related a a' → weaker a a') :
    Matching weaker x x' := by
  cases h with
  | ok ha => exact .ok (himp _ _ ha)
  | error e => exact .error e

/-- Results with equal values are equal. -/
theorem eq (h : Matching Eq x x') : x = x' := by
  cases h with
  | ok ha => rw [ha]
  | error e => rfl

end Matching

/-! ### Handlers side by side -/

namespace Handler

variable {R : Store → Store → Prop}

/-- From related stores, two handlers end in matching results and leave related stores. -/
def Couples (R : Store → Store → Prop) (related : α → α → Prop) (h h' : Handler α) : Prop :=
  ∀ s s' : Store, R s s' →
    Matching related (h.run.run s).1 (h'.run.run s').1 ∧ R (h.run.run s).2 (h'.run.run s').2

/-- A handler does not see how related stores differ. -/
def BlindTo (h : Handler α) (R : Store → Store → Prop) : Prop :=
  Couples R Eq h h

namespace Couples

variable {related weaker : α → α → Prop} {h h' : Handler α}

theorem mono (hh : Couples R related h h') (himp : ∀ a a', related a a' → weaker a a') :
    Couples R weaker h h' := by
  intro s s' hs
  obtain ⟨hresults, hstores⟩ := hh s s' hs
  exact ⟨hresults.mono himp, hstores⟩

/-- **Two handlers in two steps match if their steps do**, the second ones for all related answers
of the first ones. -/
theorem bind {relatedβ : β → β → Prop} {f f' : α → Handler β} (hh : Couples R related h h')
    (hf : ∀ a a', related a a' → Couples R relatedβ (f a) (f' a')) :
    Couples R relatedβ (h >>= f) (h' >>= f') := by
  intro s s' hs
  have hsteps := hh s s' hs
  rw [run_bind, run_bind]
  rcases hrun : h.run.run s with ⟨x, t⟩
  rcases hrun' : h'.run.run s' with ⟨x', t'⟩
  rw [hrun, hrun'] at hsteps
  obtain ⟨hresults, hstores⟩ := hsteps
  cases hresults with
  | ok ha => exact hf _ _ ha t t' hstores
  | error e => exact ⟨.error e, hstores⟩

/-- Steps that do not look at the store match if their results do. -/
theorem of_run {x x' : Except (Failure Rejection) α} (hx : Matching related x x')
    (hrun : ∀ s, h.run.run s = (x, s)) (hrun' : ∀ s, h'.run.run s = (x', s)) :
    Couples R related h h' := by
  intro s s' hs
  rw [hrun, hrun']
  exact ⟨hx, hs⟩

/-- A result that may be a failure below the bridge, with what is known of its answer. -/
theorem host (x : Except HostError α) :
    Couples R (fun a a' => x = .ok a ∧ a = a') (Handler.host x) (Handler.host x) := by
  refine of_run (.refl fun a ha => ?_) (run_host x) (run_host x)
  exact ⟨mapError_eq_ok.mp ha, rfl⟩

end Couples

namespace BlindTo

variable {h : Handler α} {f : α → Handler β}

/-- Behind a blind step, the two sides go on with the same answer. -/
theorem bind_couples {relatedβ : β → β → Prop} {f' : α → Handler β} (hh : h.BlindTo R)
    (hf : ∀ a, Couples R relatedβ (f a) (f' a)) : Couples R relatedβ (h >>= f) (h >>= f') := by
  refine Couples.bind hh fun a a' ha => ?_
  rw [← ha]
  exact hf a

theorem bind (hh : h.BlindTo R) (hf : ∀ a, (f a).BlindTo R) : (h >>= f).BlindTo R :=
  hh.bind_couples hf

/-- A step that does not look at the store. -/
theorem of_run {x : Except (Failure Rejection) α} (hrun : ∀ s, h.run.run s = (x, s)) :
    h.BlindTo R :=
  Couples.of_run (.refl fun _ _ => rfl) hrun hrun

theorem pure (a : α) : (Pure.pure a : Handler α).BlindTo R :=
  of_run (run_pure a)

theorem reject (cause : Rejection) : (Handler.reject cause : Handler α).BlindTo R :=
  of_run (run_reject cause)

theorem require (p : Prop) [Decidable p] (cause : Rejection) :
    (Handler.require p cause).BlindTo R :=
  of_run (run_require p cause)

theorem accept (x : Except Rejection α) : (Handler.accept x).BlindTo R :=
  of_run (run_accept x)

theorem result (x : Except (Failure Rejection) α) : (Handler.result x).BlindTo R :=
  of_run (run_result x)

theorem host (x : Except HostError α) : (Handler.host x).BlindTo R :=
  of_run (run_host x)

/-- A question is blind to what does not change its answer. -/
theorem ask {question : Store → Except HostError α}
    (hq : ∀ s s', R s s' → question s' = question s) : (Handler.ask question).BlindTo R := by
  intro s s' hs
  rw [run_ask, run_ask, hq s s' hs]
  exact ⟨.refl fun _ _ => rfl, hs⟩

end BlindTo

end Handler

/-! ### Slots that are shared -/

/-- Related stores have the same in a slot, and stay related when it is written in both. -/
structure Store.Shares [Codec α] (R : Store → Store → Prop) (slot : Slot α) : Prop where
  load?_eq : ∀ s s', R s s' → s'.load? slot = s.load? slot
  save : ∀ s s' a, R s s' → R (s.save slot a) (s'.save slot a)
  remove : ∀ s s', R s s' → R (s.remove slot) (s'.remove slot)

namespace Store.Shares

variable {R : Store → Store → Prop} {s s' : Store}

theorem config_eq (h : Shares R .config) (hs : R s s') : s'.config = s.config := by
  rw [Store.config, Store.config, h.load?_eq s s' hs]

theorem pool_eq {token : String} (h : Shares R (.pool token)) (hs : R s s') :
    s'.pool token = s.pool token := by
  rw [Store.pool, Store.pool, h.load?_eq s s' hs]

theorem isUsed_eq {n : UInt64} (h : Shares R (.nonce n)) (hs : R s s') :
    s'.isUsed n = s.isUsed n := by
  rw [Store.isUsed, Store.isUsed, h.load?_eq s s' hs]

end Store.Shares

/-- Two stores have the same entries at given places. -/
def Store.AgreesAt (places : Set Bytes) (s s' : Store) : Prop :=
  ∀ b ∈ places, s'[b]? = s[b]?

open Store (Shares)

namespace Store.AgreesAt

variable {places : Set Bytes} {s s' : Store}

/-- A write in both stores keeps them in agreement, wherever it goes. -/
theorem save [Codec α] (h : AgreesAt places s s') (slot : Slot α) (a : α) :
    AgreesAt places (s.save slot a) (s'.save slot a) := by
  intro b hb
  rw [Store.save, Store.save, Std.ExtTreeMap.getElem?_insert, Std.ExtTreeMap.getElem?_insert,
    h b hb]

theorem remove (h : AgreesAt places s s') (slot : Slot α) :
    AgreesAt places (s.remove slot) (s'.remove slot) := by
  intro b hb
  rw [Store.remove, Store.remove, Std.ExtTreeMap.getElem?_erase, Std.ExtTreeMap.getElem?_erase,
    h b hb]

theorem load?_eq [Codec α] {slot : Slot α} (h : AgreesAt places s s')
    (hslot : slot.key.bytes ∈ places) : s'.load? slot = s.load? slot := by
  rw [load?, load?, h slot.key.bytes hslot]

/-- **Agreement at some places** shares every slot that stands there. -/
theorem shares [Codec α] {slot : Slot α} (h : slot.key.bytes ∈ places) :
    Shares (AgreesAt places) slot where
  load?_eq _ _ hs := hs.load?_eq h
  save _ _ a hs := hs.save slot a
  remove _ _ hs := hs.remove slot

end Store.AgreesAt

variable {R : Store → Store → Prop}

namespace Handler

theorem BlindTo.load? [Codec α] {slot : Slot α} (h : Shares R slot) :
    (Handler.ask (·.load? slot)).BlindTo R :=
  .ask h.load?_eq

theorem BlindTo.save [Codec α] {slot : Slot α} (h : Shares R slot) (a : α) :
    (Handler.save slot a).BlindTo R := by
  intro s s' hs
  exact ⟨.ok rfl, h.save s s' a hs⟩

theorem BlindTo.remove [Codec α] {slot : Slot α} (h : Shares R slot) :
    (Handler.remove slot).BlindTo R := by
  intro s s' hs
  exact ⟨.ok rfl, h.remove s s' hs⟩

theorem blindTo_config (h : Shares R .config) : (ask Store.config).BlindTo R :=
  .ask fun _ _ hs => h.config_eq hs

theorem blindTo_isUsed {n : UInt64} (h : Shares R (.nonce n)) : (ask (·.isUsed n)).BlindTo R :=
  .ask fun _ _ hs => h.isUsed_eq hs

theorem blindTo_storePool {token : String} (h : Shares R (.pool token)) (p : Pool) :
    (storePool token p).BlindTo R :=
  (BlindTo.accept p.checkSolvent).bind fun _ => .save h p

/-- Booking looks at the pool of its token only. -/
theorem blindTo_book {token : String} (h : Shares R (.pool token)) (action : PoolAction Unit) :
    (book token action).BlindTo R := by
  have hask : (ask (·.pool token)).BlindTo R := .ask fun _ _ hs => h.pool_eq hs
  refine hask.bind fun p => ?_
  rcases action.run.run p with ⟨outcome, q⟩
  exact (BlindTo.accept outcome).bind fun _ => (blindTo_storePool h q).bind fun _ => .pure q

end Handler

open Handler (Couples BlindTo)

/-- Consuming a nonce looks at its mark only. -/
theorem Nonce.blindTo_consume {n : UInt64} (h : Shares R (.nonce n)) : (consume n).BlindTo R := by
  refine (Handler.blindTo_isUsed h).bind fun used => ?_
  cases used with
  | true => exact .reject _
  | false => exact .save h true

/-- **A call that is blind to a relation** ends in the same way on related stores, and leaves
related stores. -/
theorem Call.perform_of_blindTo {recover : Recovery} {call : Call}
    (h : (call.handle recover).BlindTo R) {s s' : Store} (hs : R s s') :
    (call.perform recover s').1 = (call.perform recover s).1 ∧
      R (call.perform recover s).2 (call.perform recover s').2 := by
  have hrun := h s s' hs
  rw [perform, perform]
  rcases hcall : (call.handle recover).run.run s with ⟨x, t⟩
  rcases hcall' : (call.handle recover).run.run s' with ⟨x', t'⟩
  rw [hcall, hcall'] at hrun
  obtain ⟨hresults, hstores⟩ := hrun
  obtain rfl : x = x' := hresults.eq
  -- whatever a failed call has written is kept on neither side
  cases x with
  | ok r => exact ⟨rfl, hstores⟩
  | error failure => exact ⟨rfl, hs⟩

/-! ### What the owner takes out -/

/-- Two settings are equal but for the bridge being paused. -/
def Config.EqualButPaused (c c' : Config) : Prop :=
  ∃ paused, c' = { c with paused }

theorem Config.EqualButPaused.refl (c : Config) : c.EqualButPaused c :=
  ⟨c.paused, rfl⟩

/-- Settings that are the same are equal but for the bridge being paused. -/
theorem Handler.couples_config (h : Shares R .config) :
    Couples R Config.EqualButPaused (ask Store.config) (ask Store.config) :=
  (blindTo_config h).mono fun c _ heq => heq ▸ .refl c

namespace Release

theorem blindTo_checkTerms (token recipient : String) (amount : Amount) :
    (checkTerms token recipient amount).BlindTo R :=
  (BlindTo.require _ _).bind fun _ => (BlindTo.require _ _).bind fun _ => .require _ _

variable {sender : String}
variable (hconfig : Couples R Config.EqualButPaused (Handler.ask Store.config)
  (Handler.ask Store.config))

include hconfig

theorem couples_asOwner :
    Couples R Config.EqualButPaused (asOwner sender) (asOwner sender) := by
  refine hconfig.bind fun c c' hc => ?_
  obtain ⟨paused, rfl⟩ := hc
  have howner : (Handler.require (sender = c.owner) .unauthorized).BlindTo R := .require _ _
  refine howner.bind_couples fun _ => ?_
  exact .of_run (.ok ⟨paused, rfl⟩) (Handler.run_pure c) (Handler.run_pure _)

/-- A release by the owner looks at its pool, and at the settings but for the bridge being
paused. -/
theorem blindTo_settle {q : Settlement} (hpool : Shares R (.pool q.token)) :
    (settle sender q).BlindTo R := by
  refine (couples_asOwner hconfig).bind fun _ _ _ => ?_
  refine (blindTo_checkTerms q.token q.recipient q.amount).bind fun _ => ?_
  exact (Handler.blindTo_book hpool _).bind fun _ => .pure _

/-- So does a withdrawal of commission. -/
theorem blindTo_withdrawCommission {token : String} {amount : Amount}
    (hpool : Shares R (.pool token)) : (withdrawCommission sender token amount).BlindTo R := by
  refine (couples_asOwner hconfig).bind fun c c' hc => ?_
  -- the response names the owner, who is the same in both settings
  obtain ⟨paused, rfl⟩ := hc
  have hbook := Handler.blindTo_book hpool (PoolAction.withdraw amount)
  have hrest : (do
      let pool ← Handler.book token (PoolAction.withdraw amount)
      return withdrawalResponse c.owner token amount pool.reserved : Handler Response).BlindTo R :=
    hbook.bind fun _ => .pure _
  exact (BlindTo.require (Address.IsValid token) _).bind fun _ => hrest

end Release

end TokenCustody
