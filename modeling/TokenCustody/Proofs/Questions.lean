import TokenCustody.Bridge.Query
import TokenCustody.Proofs.Steps

/-!
# What questions are answered with

One lemma for each question that somebody asks before he calls: it is answered exactly if the
addresses in it are some, the store can be read where it has to be, and the commission is in range;
and then the answer says what the store says (`Question.answer_pool_eq_ok` and its siblings). The
questions for a digest are answered with the digest that the trusted signer must have signed
(`Deposit.answer_question_eq_ok`, `Release.answer_question_eq_ok`).
-/

namespace TokenCustody

variable {source : BalanceSource} {context : Context} {s : Store} {a : Answer}

namespace Question

theorem checkToken_eq_ok {text : String} {u : Unit} :
    checkToken text = .ok u ↔ Address.IsValid text := by
  rw [checkToken]
  split_ifs with h <;> simp [h]

/-! ### Pools, nonces and commissions -/

theorem answer_pool_eq_ok {token : String} :
    (pool token).answer source context s = .ok a ↔
      Address.IsValid token ∧ ∃ p balance, s.pool token = .ok p ∧
        source.balance token context.bridge = .ok balance ∧
        .pool ⟨token, p.held, p.reserved, p.bridgeable, balance.amount⟩ = a := by
  simp only [answer, poolAnswer, mapError_eq_ok, bind_eq_ok, pure_eq_ok, exists_unit,
    Address.check_eq_ok]
  constructor
  · rintro ⟨_, ⟨hvalid, p, hp, balance, hbalance, rfl⟩, rfl⟩
    exact ⟨hvalid, p, balance, hp, hbalance, rfl⟩
  · rintro ⟨hvalid, p, balance, hp, hbalance, rfl⟩
    exact ⟨_, ⟨hvalid, p, hp, balance, hbalance, rfl⟩, rfl⟩

theorem answer_commissionPool_eq_ok {token : String} :
    (commissionPool token).answer source context s = .ok a ↔
      Address.IsValid token ∧ ∃ p, s.pool token = .ok p ∧
        .commissionPool token p.reserved = a := by
  simp only [answer, mapError_eq_ok, bind_eq_ok, pure_eq_ok, exists_unit, Address.check_eq_ok]

theorem answer_nonceUsed_eq_ok {n : UInt64} :
    (nonceUsed n).answer source context s = .ok a ↔
      ∃ used, s.isUsed n = .ok used ∧ .nonceUsed ⟨n, used⟩ = a := by
  simp only [answer, mapError_eq_ok, bind_eq_ok, pure_eq_ok]

theorem answer_totalCommission_eq_ok {amount fixed : Amount} :
    (totalCommission amount fixed).answer source context s = .ok a ↔
      ∃ config c, s.config = .ok config ∧
        Commission.charge amount fixed config.stablePercent = .ok c ∧ .totalCommission c = a := by
  simp only [answer, commissionAnswer, mapError_eq_ok, bind_eq_ok, pure_eq_ok, exists_and_left]

/-! ### Digests -/

theorem digestAnswer_inj {payloadHash payloadHash' digest digest' : Word} :
    digestAnswer payloadHash digest = digestAnswer payloadHash' digest' ↔
      payloadHash = payloadHash' ∧ digest = digest' := by
  simp only [digestAnswer, Answer.digest.injEq, DigestAnswer.mk.injEq, Vector.toList_inj]

end Question

/-- **The question for a deposit** is answered if user and token have addresses, with the digest
that the trusted signer must have signed. -/
theorem Deposit.answer_question_eq_ok {d : Deposit} :
    (Question.bridgeInDigest d.user d.token d.amount d.consent.terms).answer source context s =
        .ok a ↔
      Address.IsValid d.user ∧ Address.IsValid d.token ∧
        Question.digestAnswer (d.authorization context).payloadHash
          (d.authorization context).signedDigest = a := by
  simp only [Question.answer, mapError_eq_ok, bind_eq_ok, pure_eq_ok, exists_unit,
    Address.check_eq_ok, Question.checkToken_eq_ok]
  rfl

/-- **The question for a release** is answered if token and recipient have addresses, with the
digest that the trusted signer must have signed. -/
theorem Release.answer_question_eq_ok {terms : ReleaseTerms} :
    (Question.transferOutDigest terms).answer source context s = .ok a ↔
      Address.IsValid terms.token ∧ Address.IsValid terms.recipient ∧
        Question.digestAnswer (authorization context terms).payloadHash
          (authorization context terms).signedDigest = a := by
  simp only [Question.answer, mapError_eq_ok, bind_eq_ok, pure_eq_ok, exists_unit,
    Address.check_eq_ok, Question.checkToken_eq_ok]

end TokenCustody
