import TokenCustody.Bridge.Run
import TokenCustody.Proofs.Layout
import TokenCustody.Proofs.Steps

/-!
# What administration writes

One lemma for each handler that leaves the books alone: when it succeeds, what it answers, and which
store it leaves. The owner's handlers write to the settings or to the proposed owner, setting the
bridge up writes to the version and the settings, and a migration to the version. So the pools and
the marks of the nonces stay as they are (`Store.SameBooks`).
-/

namespace TokenCustody

variable {sender : String} {s t : Store} {r : Response}

namespace Administration

theorem setStablePercent_eq_ok {percent : UInt64} :
    (setStablePercent sender percent).run.run s = (.ok r, t) ↔
      ∃ config, s.config = .ok config ∧ sender = config.owner ∧ percent ≤ maxStablePercent ∧
        response
          [("method", "set_stable_commission_percent"),
           .number "old_percent" config.stablePercent,
           .number "new_percent" percent] = r ∧
        s.save .config { config with stablePercent := percent } = t := by
  simp only [setStablePercent, Handler.bind_eq_ok, Release.asOwner_eq_ok, Handler.accept_eq_ok,
    Commission.checkStablePercent_eq_ok, Handler.save_eq_ok, Handler.pure_eq_ok, exists_unit,
    and_assoc, exists_and_left, exists_eq_left']

theorem setPaused_eq_ok {paused : Bool} :
    (setPaused sender paused).run.run s = (.ok r, t) ↔
      ∃ config, s.config = .ok config ∧ sender = config.owner ∧ config.paused ≠ paused ∧
        response [("method", if paused then "pause" else "unpause")] = r ∧
        s.save .config { config with paused } = t := by
  simp only [setPaused, Handler.bind_eq_ok, Release.asOwner_eq_ok, Handler.require_eq_ok,
    Handler.save_eq_ok, Handler.pure_eq_ok, exists_unit, and_assoc, exists_and_left,
    exists_eq_left']

theorem proposeOwner_eq_ok {newOwner : String} :
    (proposeOwner sender newOwner).run.run s = (.ok r, t) ↔
      ∃ config, s.config = .ok config ∧ sender = config.owner ∧ Address.IsValid newOwner ∧
        response [("method", "propose_owner"), ("new_owner", newOwner)] = r ∧
        s.save .pendingOwner newOwner = t := by
  simp only [proposeOwner, Handler.bind_eq_ok, Release.asOwner_eq_ok, Handler.host_eq_ok,
    Address.check_eq_ok, Handler.save_eq_ok, Handler.pure_eq_ok, exists_unit, and_assoc,
    exists_and_left, exists_eq_left']

theorem acceptOwnership_eq_ok :
    (acceptOwnership sender).run.run s = (.ok r, t) ↔
      ∃ config, s.load? .pendingOwner = .ok (some sender) ∧ s.config = .ok config ∧
        response
          [("method", "accept_ownership"),
           ("previous_owner", config.owner),
           ("new_owner", sender)] = r ∧
        (s.save .config { config with owner := sender }).remove .pendingOwner = t := by
  simp only [acceptOwnership, Handler.bind_eq_ok, Handler.ask_eq_ok, Handler.reject_eq_ok,
    Handler.require_eq_ok, Handler.save_eq_ok, Handler.remove_eq_ok, Handler.pure_eq_ok,
    Option.exists, exists_unit, and_assoc, exists_and_left, exists_eq_left', and_false, false_or]
  -- the sender is the proposed owner, so one name stands for both
  constructor
  · rintro ⟨_, howner, rfl, h⟩
    exact ⟨howner, h⟩
  · rintro ⟨howner, h⟩
    exact ⟨sender, howner, rfl, h⟩

theorem cancelProposal_eq_ok :
    (cancelProposal sender).run.run s = (.ok r, t) ↔
      ∃ config pending, s.config = .ok config ∧ sender = config.owner ∧
        s.load? .pendingOwner = .ok (some pending) ∧
        response [("method", "cancel_ownership_proposal")] = r ∧ s.remove .pendingOwner = t := by
  simp only [cancelProposal, Handler.bind_eq_ok, Release.asOwner_eq_ok, Handler.ask_eq_ok,
    Handler.reject_eq_ok, Handler.remove_eq_ok, Handler.pure_eq_ok, Option.exists, exists_unit,
    and_assoc, exists_and_left, exists_and_right, exists_eq_left', and_false, false_or]

end Administration

theorem Instantiation.handle_eq_ok {m : Instantiation} {context : Context} :
    (m.handle context sender).run.run s = (.ok r, t) ↔
      ∃ owner signer, m.ownerOr sender = .ok owner ∧ m.signerIdentity = .ok signer ∧
        m.stablePercent.getD Commission.defaultStablePercent ≤ maxStablePercent ∧
        Administration.response
          [("method", "instantiate"),
           ("owner", owner),
           ("signer", signer.text),
           .number "stable_commission_percent"
             (m.stablePercent.getD Commission.defaultStablePercent),
           ("chain_id", context.chainId)] = r ∧
        (s.save .version Version.current).save .config {
          owner
          signer := signer.toList
          stablePercent := m.stablePercent.getD Commission.defaultStablePercent
          paused := false } = t := by
  simp only [handle, Handler.bind_eq_ok, Handler.save_eq_ok, Handler.host_eq_ok,
    Handler.accept_eq_ok, Commission.checkStablePercent_eq_ok, Handler.pure_eq_ok, exists_unit,
    and_assoc, exists_and_left, exists_eq_left']

theorem Migration.handle_eq_ok {m : Migration} :
    m.handle.run.run s = (.ok r, t) ↔
      Administration.response
          [("method", "migrate"), ("version", Version.current.version)] = r ∧
        s.save .version Version.current = t := by
  simp only [handle, Handler.bind_eq_ok, Handler.save_eq_ok, Handler.pure_eq_ok, exists_unit,
    exists_eq_left']

/-! ### The books -/

/-- Two stores have the same pools and the same marks of nonces. -/
structure Store.SameBooks (s t : Store) : Prop where
  load?_pool : ∀ token, t.load? (.pool token) = s.load? (.pool token)
  load?_nonce : ∀ n, t.load? (.nonce n) = s.load? (.nonce n)

namespace Store.SameBooks

variable {α : Type} {slot : Slot α}

theorem refl (s : Store) : s.SameBooks s :=
  ⟨fun _ => rfl, fun _ => rfl⟩

theorem save [Codec α] (h : s.SameBooks t) (hpool : ∀ token, slot.key ≠ .pool token)
    (hnonce : ∀ n, slot.key ≠ .nonce n) (a : α) : s.SameBooks (t.save slot a) where
  load?_pool token := (load?_save_of_key_ne t (hpool token) a).trans (h.load?_pool token)
  load?_nonce n := (load?_save_of_key_ne t (hnonce n) a).trans (h.load?_nonce n)

theorem remove (h : s.SameBooks t) (hpool : ∀ token, slot.key ≠ .pool token)
    (hnonce : ∀ n, slot.key ≠ .nonce n) : s.SameBooks (t.remove slot) where
  load?_pool token := (load?_remove_of_key_ne t (hpool token)).trans (h.load?_pool token)
  load?_nonce n := (load?_remove_of_key_ne t (hnonce n)).trans (h.load?_nonce n)

theorem save_config (h : s.SameBooks t) (c : Config) : s.SameBooks (t.save .config c) :=
  h.save (by simp) (by simp) c

theorem save_pendingOwner (h : s.SameBooks t) (owner : String) :
    s.SameBooks (t.save .pendingOwner owner) :=
  h.save (by simp) (by simp) owner

theorem save_version (h : s.SameBooks t) (v : Version) : s.SameBooks (t.save .version v) :=
  h.save (by simp) (by simp) v

theorem remove_pendingOwner (h : s.SameBooks t) : s.SameBooks (t.remove .pendingOwner) :=
  h.remove (by simp) (by simp)

theorem pool_eq (h : s.SameBooks t) (token : String) : t.pool token = s.pool token := by
  rw [Store.pool, Store.pool, h.load?_pool]

theorem isUsed_eq (h : s.SameBooks t) (n : UInt64) : t.isUsed n = s.isUsed n := by
  rw [Store.isUsed, Store.isUsed, h.load?_nonce]

/-- Where the books are those of the empty store, no token has been deposited. -/
theorem pool_of_empty (h : (∅ : Store).SameBooks t) (token : String) :
    t.pool token = .ok .empty :=
  (h.pool_eq token).trans (pool_empty token)

/-- Where the books are those of the empty store, no nonce has been consumed. -/
theorem isUsed_of_empty (h : (∅ : Store).SameBooks t) (n : UInt64) : t.isUsed n = .ok false :=
  (h.isUsed_eq n).trans (isUsed_empty n)

end Store.SameBooks

end TokenCustody
