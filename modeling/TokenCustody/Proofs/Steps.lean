import TokenCustody.Bridge.Administration
import TokenCustody.Proofs.PoolAction

/-!
# The steps of the handlers

One lemma for each step that several handlers share: what must hold for it to succeed, what it
answers, and which store it leaves. Callers cite these and never unfold the steps.
-/

namespace TokenCustody

variable {s t : Store}

namespace Address

theorem check_eq_ok {text : String} {u : Unit} : check text = .ok u ↔ IsValid text := by
  rw [check, IsValid]
  cases fault? text <;> simp

end Address

namespace Context

theorem refuseAfter_eq_ok {context : Context} {deadline : UInt64} {u : Unit} :
    context.refuseAfter deadline = .ok u ↔ context.seconds ≤ deadline := by
  rw [refuseAfter, ← UInt64.not_lt]
  split_ifs with h <;> simp [h]

end Context

namespace Config

theorem signerIdentity_eq_ok {config : Config} {signer : EthAddress} :
    config.signerIdentity = .ok signer ↔ config.signerAddress? = some signer := by
  rw [signerIdentity]
  cases config.signerAddress? <;> simp

end Config

namespace Commission

theorem checkStablePercent_eq_ok {percent : UInt64} {u : Unit} :
    checkStablePercent percent = .ok u ↔ percent ≤ maxStablePercent := by
  rw [checkStablePercent, ← UInt64.not_lt]
  split_ifs with h <;> simp [h]

end Commission

namespace Handler

theorem storePool_eq_ok {token : String} {pool : Pool} {u : Unit} :
    (storePool token pool).run.run s = (.ok u, t) ↔
      pool.Solvent ∧ s.save (.pool token) pool = t := by
  simp only [storePool, bind_eq_ok, accept_eq_ok, save_eq_ok, exists_unit,
    Pool.checkSolvent_eq_ok, and_assoc, exists_and_left, exists_eq_left']

/-- Booking succeeds if the action does on the stored pool; the pool that it leaves is stored and
answered. -/
theorem book_eq_ok {token : String} {action : PoolAction Unit} {q : Pool} :
    (book token action).run.run s = (.ok q, t) ↔
      ∃ p, s.pool token = .ok p ∧ action.run.run p = (.ok (), q) ∧ q.Solvent ∧
        s.save (.pool token) q = t := by
  simp only [book, bind_eq_ok, ask_eq_ok, and_assoc, exists_and_left, exists_eq_left']
  refine exists_congr fun p => and_congr_right fun _ => ?_
  rcases action.run.run p with ⟨outcome, p'⟩
  simp only [bind_eq_ok, accept_eq_ok, storePool_eq_ok, pure_eq_ok, exists_unit, and_assoc,
    exists_and_left, exists_eq_left']
  constructor
  · rintro ⟨rfl, hsolvent, rfl, rfl⟩
    exact ⟨rfl, hsolvent, rfl⟩
  · rintro ⟨heq, hsolvent, rfl⟩
    obtain ⟨rfl, rfl⟩ := Prod.mk.inj heq
    exact ⟨rfl, hsolvent, rfl, rfl⟩

/-- Booking is refused if the action is, and then nothing is written. -/
theorem run_book_of_error {token : String} {action : PoolAction Unit} {p q : Pool}
    {cause : Rejection} (hp : s.pool token = .ok p)
    (haction : action.run.run p = (.error cause, q)) :
    (book token action).run.run s = (.error (.rejected cause), s) := by
  rw [book, run_bind_of_ok (ask_eq_ok.mpr ⟨hp, rfl⟩), haction]
  exact run_bind_of_error (run_reject cause s)

end Handler

namespace Nonce

theorem consume_eq_ok {nonce : UInt64} {u : Unit} :
    (consume nonce).run.run s = (.ok u, t) ↔
      s.isUsed nonce = .ok false ∧ s.save (.nonce nonce) true = t := by
  simp only [consume, Handler.bind_eq_ok, Handler.ask_eq_ok, and_assoc, exists_and_left,
    exists_eq_left', Bool.exists_bool, Bool.false_eq_true, if_false, if_true,
    Handler.save_eq_ok, Handler.reject_eq_ok, false_and, exists_false, and_false, or_false]

/-- A nonce that has been consumed is not consumed again, and nothing is written. -/
theorem consume_of_isUsed {nonce : UInt64} (h : s.isUsed nonce = .ok true) :
    (consume nonce).run.run s = (.error (.rejected (.alreadyUsedSignature nonce)), s) := by
  rw [consume, Handler.run_bind_of_ok (Handler.ask_eq_ok.mpr ⟨h, rfl⟩), if_pos rfl]
  exact Handler.run_bind_of_error (Handler.run_reject _ s)

end Nonce

namespace Approval

variable {recover : Recovery} {trusted : EthAddress} {digest : Word} {signature : Bytes}

/-- A nonce is approved if it is unused and the trusted signer has signed; nothing is written. -/
theorem verify_eq_ok {nonce : UInt64} {a : Approval} :
    (verify recover trusted digest signature nonce).run.run s = (.ok a, t) ↔
      s.isUsed nonce = .ok false ∧ recover digest signature = .ok trusted ∧ ⟨nonce⟩ = a ∧
        s = t := by
  simp only [verify, Handler.bind_eq_ok, Handler.ask_eq_ok, Handler.accept_eq_ok,
    Handler.require_eq_ok, Handler.reject_eq_ok, Handler.pure_eq_ok, exists_unit, and_assoc,
    exists_and_left, exists_eq_left', Bool.exists_bool, Bool.false_eq_true, if_false, if_true,
    false_and, exists_false, and_false, or_false]
  refine and_congr_right fun _ => ?_
  constructor
  · rintro ⟨_, hrecover, rfl, rfl, rfl⟩
    exact ⟨hrecover, rfl, rfl⟩
  · rintro ⟨hrecover, rfl, rfl⟩
    exact ⟨trusted, hrecover, rfl, rfl, rfl⟩

/-- A nonce that has been consumed is not approved, whatever the signature is. -/
theorem verify_of_isUsed {nonce : UInt64} (h : s.isUsed nonce = .ok true) :
    (verify recover trusted digest signature nonce).run.run s =
      (.error (.rejected (.alreadyUsedSignature nonce)), s) := by
  rw [verify, Handler.run_bind_of_ok (Handler.ask_eq_ok.mpr ⟨h, rfl⟩), if_pos rfl]
  exact Handler.run_bind_of_error (Handler.run_reject _ s)

/-- A signature that names nobody is not approved. -/
theorem verify_of_recover_eq_error {nonce : UInt64} {cause : Rejection}
    (hunused : s.isUsed nonce = .ok false) (h : recover digest signature = .error cause) :
    (verify recover trusted digest signature nonce).run.run s = (.error (.rejected cause), s) := by
  rw [verify, Handler.run_bind_of_ok (Handler.ask_eq_ok.mpr ⟨hunused, rfl⟩), if_neg (by simp), h]
  exact Handler.run_bind_of_error (Handler.run_reject cause s)

/-- A signature that names somebody else is not approved. -/
theorem verify_of_recover_ne {nonce : UInt64} {signer : EthAddress}
    (hunused : s.isUsed nonce = .ok false) (h : recover digest signature = .ok signer)
    (hne : signer ≠ trusted) :
    (verify recover trusted digest signature nonce).run.run s =
      (.error (.rejected .invalidSignature), s) := by
  rw [verify, Handler.run_bind_of_ok (Handler.ask_eq_ok.mpr ⟨hunused, rfl⟩), if_neg (by simp),
    Handler.run_bind_of_ok (Handler.accept_eq_ok.mpr ⟨h, rfl⟩)]
  refine Handler.run_bind_of_error ?_
  rw [Handler.run_require, if_neg hne]

theorem spend_eq_ok {a : Approval} {nonce : UInt64} :
    a.spend.run.run s = (.ok nonce, t) ↔
      s.isUsed a.nonce = .ok false ∧ a.nonce = nonce ∧ s.save (.nonce a.nonce) true = t := by
  simp only [spend, Handler.bind_eq_ok, Nonce.consume_eq_ok, Handler.pure_eq_ok, exists_unit,
    and_assoc, exists_and_left, exists_eq_left']

/-- An approval is worth nothing once its nonce has been consumed. -/
theorem spend_of_isUsed {a : Approval} (h : s.isUsed a.nonce = .ok true) :
    a.spend.run.run s = (.error (.rejected (.alreadyUsedSignature a.nonce)), s) :=
  Handler.run_bind_of_error (Nonce.consume_of_isUsed h)

end Approval

namespace Release

theorem asOwner_eq_ok {sender : String} {config : Config} :
    (asOwner sender).run.run s = (.ok config, t) ↔
      s.config = .ok config ∧ sender = config.owner ∧ s = t := by
  simp only [asOwner, Handler.bind_eq_ok, Handler.ask_eq_ok, Handler.require_eq_ok,
    Handler.pure_eq_ok, exists_unit, and_assoc, exists_and_left, exists_eq_left']
  constructor
  · rintro ⟨_, hconfig, howner, rfl, rfl⟩
    exact ⟨hconfig, howner, rfl⟩
  · rintro ⟨hconfig, howner, rfl⟩
    exact ⟨config, hconfig, howner, rfl, rfl⟩

theorem checkTerms_eq_ok {token recipient : String} {amount : Amount} {u : Unit} :
    (checkTerms token recipient amount).run.run s = (.ok u, t) ↔
      Address.IsValid token ∧ Address.IsValid recipient ∧ amount ≠ 0 ∧ s = t := by
  simp only [checkTerms, Handler.bind_eq_ok, Handler.require_eq_ok, exists_unit, and_assoc,
    exists_and_left, exists_eq_left']

end Release

end TokenCustody
