import TokenCustody.Proofs.History
import TokenCustody.Proofs.Safety
import TokenCustody.Proofs.Verification

/-!
# Which requests are accepted

A request of the trusted signer goes through a list of checks, and its outcome is decided by that
list: it is accepted exactly if every condition holds, and otherwise refused for the first one that
does not (`Handler.DecidedBy`). The lists are `Deposit.checks`, which the two ways of depositing
share, and `ReleaseRequest.checks`. On every store that a run leaves they are complete
(`Command.deposit_decided`, `Command.release_decided`).

A handler looks at more than its list says: at the signer in the settings, at the share of the
commission, at the sum of what is reserved, at the solvency of the pool, and once more at the nonce.
On a reachable store none of this fails behind the checks in front of it, since the settings are
sound and the pools are solvent.
-/

namespace TokenCustody

open Handler (Succeeds)

/-- The greatest amount up to a number. -/
def Amount.capped (n : ℕ) : Amount :=
  ⟨min n (size - 1), Nat.lt_of_le_of_lt (Nat.min_le_right ..) (by decide)⟩

theorem Amount.val_capped {n : ℕ} (h : n < size) : (capped n).val = n :=
  Nat.min_eq_left (Nat.le_sub_one_of_lt h)

/-! ### Checks in order -/

/-- A condition, and why a request is refused that does not meet it. -/
structure Check where
  condition : Prop
  refusal : Rejection

/-- The outcome of a handler on a store is decided by a list of checks: the handler succeeds exactly
if all conditions hold; otherwise it is refused for the first one that does not, and leaves the
store as it was. -/
structure Handler.DecidedBy {α : Type} (h : Handler α) (s : Store) (checks : List Check) :
    Prop where
  succeeds_iff : h.Succeeds s ↔ ∀ check ∈ checks, check.condition
  refused : ∀ front check behind, checks = front ++ check :: behind →
    (∀ passed ∈ front, passed.condition) → ¬ check.condition →
      h.run.run s = (.error (.rejected check.refusal), s)

namespace Handler.DecidedBy

variable {α β : Type} {h : Handler α} {f : α → Handler β} {s : Store}
variable {check : Check} {checks : List Check}

/-- What succeeds needs no check. -/
theorem of_succeeds (hh : h.Succeeds s) : h.DecidedBy s [] where
  succeeds_iff := iff_of_true hh (List.forall_mem_nil _)
  refused front check behind hsplit := by
    cases front with
    | nil => cases hsplit
    | cons => cases hsplit

/-- A check in front of others. -/
theorem cons (hrefused : ¬ check.condition → h.run.run s = (.error (.rejected check.refusal), s))
    (hbehind : check.condition → h.DecidedBy s checks) : h.DecidedBy s (check :: checks) where
  succeeds_iff := by
    rw [List.forall_mem_cons]
    constructor
    · intro hh
      have hcheck : check.condition := by
        by_contra hnot
        obtain ⟨a, t, hrun⟩ := hh
        cases hrun.symm.trans (hrefused hnot)
      exact ⟨hcheck, (hbehind hcheck).succeeds_iff.mp hh⟩
    · rintro ⟨hcheck, hall⟩
      exact (hbehind hcheck).succeeds_iff.mpr hall
  refused front failing behind hsplit hfront hnot := by
    cases front with
    | nil =>
      obtain ⟨rfl, -⟩ := List.cons.inj hsplit
      exact hrefused hnot
    | cons first front =>
      obtain ⟨rfl, rfl⟩ := List.cons.inj hsplit
      obtain ⟨hfirst, hfront⟩ := List.forall_mem_cons.mp hfront
      exact (hbehind hfirst).refused front failing behind rfl hfront hnot

theorem congr {h' : Handler α} (hh : h.DecidedBy s checks) (heq : h'.run.run s = h.run.run s) :
    h'.DecidedBy s checks where
  succeeds_iff := by
    rw [Succeeds, heq]
    exact hh.succeeds_iff
  refused := heq ▸ hh.refused

/-- Behind a step that reads what is there, the same checks decide. -/
theorem bind_of_ok {a : α} (hh : h.run.run s = (.ok a, s)) (hf : (f a).DecidedBy s checks) :
    (h >>= f).DecidedBy s checks :=
  hf.congr (run_bind_of_ok hh)

/-- A step that is a check, in front of the checks behind it. -/
theorem bind_cons {a : α} (hok : check.condition → h.run.run s = (.ok a, s))
    (hnot : ¬ check.condition → h.run.run s = (.error (.rejected check.refusal), s))
    (hf : check.condition → (f a).DecidedBy s checks) :
    (h >>= f).DecidedBy s (check :: checks) :=
  .cons (fun hcheck => run_bind_of_error (hnot hcheck)) fun hcheck =>
    bind_of_ok (hok hcheck) (hf hcheck)

/-! ### The steps of a request -/

theorem require_bind {p c : Prop} [Decidable p] {cause : Rejection} {f : Unit → Handler β}
    (hp : p ↔ c) (hf : (f ()).DecidedBy s checks) :
    (require p cause >>= f).DecidedBy s (⟨c, cause⟩ :: checks) := by
  refine bind_cons (fun hc => ?_) (fun hc => ?_) fun _ => hf
  · exact require_eq_ok.mpr ⟨hp.mpr hc, rfl⟩
  · rw [run_require, if_neg (mt hp.mp hc)]

/-- The terms of a release are three checks. -/
theorem checkTerms_bind {token recipient : String} {amount : Amount} {f : Unit → Handler β}
    (hf : (f ()).DecidedBy s checks) :
    (Release.checkTerms token recipient amount >>= f).DecidedBy s
      (⟨Address.IsValid token, .invalidTokenAddress⟩ ::
        ⟨Address.IsValid recipient, .invalidRecipientAddress⟩ ::
        ⟨amount ≠ 0, .invalidAmount⟩ :: checks) := by
  simp only [Release.checkTerms, bind_assoc]
  refine .require_bind Iff.rfl ?_
  refine .require_bind Iff.rfl ?_
  exact .require_bind Iff.rfl hf

/-- A deadline that has passed is reported as a signature that does not hold. -/
theorem refuseAfter_bind {context : Context} {deadline : UInt64} {f : Unit → Handler β}
    (hf : (f ()).DecidedBy s checks) :
    (accept (context.refuseAfter deadline) >>= f).DecidedBy s
      (⟨context.seconds ≤ deadline, .invalidSignature⟩ :: checks) := by
  refine bind_cons (fun hle => ?_) (fun hnot => ?_) fun _ => hf
  · exact accept_eq_ok.mpr ⟨Context.refuseAfter_eq_ok.mpr hle, rfl⟩
  · rw [Context.refuseAfter, if_pos (UInt64.not_le.mp hnot)]
    exact run_reject _ s

/-- **An approval is two checks**: of the nonce, and then of the signature. -/
theorem verify_bind {config : Config} {trusted : EthAddress} {digest : Word} {signature : Bytes}
    {nonce : UInt64} {used : Bool} {f : Approval → Handler β}
    (signer? : Word → Bytes → Option EthAddress) (htrusted : config.signerAddress? = some trusted)
    (hused : s.isUsed nonce = .ok used)
    (hf : s.isUsed nonce = .ok false → (f ⟨nonce⟩).DecidedBy s checks) :
    (Approval.verify (.ofOption signer?) trusted digest signature nonce >>= f).DecidedBy s
      (⟨s.isUsed nonce = .ok false, .alreadyUsedSignature nonce⟩ ::
        ⟨config.Signed (.ofOption signer?) digest signature, .invalidSignature⟩ :: checks) := by
  refine .cons (fun hnot => ?_) fun hunused => ?_
  · have hmark : s.isUsed nonce = .ok true := by
      cases used with
      | true => exact hused
      | false => exact absurd hused hnot
    exact run_bind_of_error (Approval.verify_of_isUsed hmark)
  · refine bind_cons (fun hsigned => ?_) (fun hnot => ?_) fun _ => hf hunused
    · obtain ⟨signer, hsigner, hrecover⟩ := hsigned
      obtain rfl : signer = trusted := Option.some.inj (hsigner.symm.trans htrusted)
      exact Approval.verify_eq_ok.mpr ⟨hunused, hrecover, rfl, rfl⟩
    · exact Config.verify_of_not_signed signer? htrusted hunused hnot

/-- **A commission is two checks**: of its sum, and then of what it leaves of the deposit. -/
theorem total_bind {amount fixed : Amount} {percent : UInt64} {f : Amount → Handler β}
    (hpercent : percent ≤ Commission.hundredPercent)
    (hf : Commission.share amount percent + fixed.val ≤ amount.val →
      (f (.capped (Commission.share amount percent + fixed.val))).DecidedBy s checks) :
    (result (Commission.total amount fixed percent) >>= f).DecidedBy s
      (⟨Commission.share amount percent + fixed.val < Amount.size,
          .overflow (.sum (.capped (Commission.share amount percent)) fixed)⟩ ::
        ⟨Commission.share amount percent + fixed.val ≤ amount.val,
          .commissionGreaterThanAmount (.capped (Commission.share amount percent + fixed.val))
            amount⟩ :: checks) := by
  refine .cons (fun hnot => ?_) fun hsum => ?_
  · -- the share alone is in range, since it is no more than the amount
    have hstable := Amount.val_capped (Commission.share_lt amount hpercent)
    have hsize :
        Amount.size ≤ (Amount.capped (Commission.share amount percent)).val + fixed.val := by
      rw [hstable]
      exact Nat.le_of_not_lt hnot
    have htotal := Commission.total_eq_error.mpr (.inr (.inl ⟨_, hstable, hsize, rfl⟩))
    refine run_bind_of_error ?_
    rw [htotal]
    exact run_throw _ s
  · refine bind_cons (fun hle => ?_) (fun hnot => ?_) hf
    · exact result_eq_ok.mpr ⟨Commission.total_eq_ok.mpr
        ⟨Amount.val_capped hsum, (Amount.val_capped hsum).trans_le hle⟩, rfl⟩
    · have hlt : amount < .capped (Commission.share amount percent + fixed.val) :=
        (Nat.lt_of_not_le hnot).trans_eq (Amount.val_capped hsum).symm
      have htotal := Commission.total_eq_error.mpr
        (.inr (.inr ⟨_, Amount.val_capped hsum, hlt, rfl⟩))
      rw [htotal]
      exact run_throw _ s

/-- **Booking and spending are one check**, which the pool makes: the pool that an action leaves can
be stored, and the nonce is still unused behind it. -/
theorem book_spend {token : String} {action : PoolAction Unit} {a : Approval} {p : Pool}
    {answer : UInt64 → β} (hunused : s.isUsed a.nonce = .ok false) (hp : s.pool token = .ok p)
    (hok : check.condition → ∃ q, action.run.run p = (.ok (), q) ∧ q.Solvent)
    (hnot : ¬ check.condition → action.run.run p = (.error check.refusal, p)) :
    (do
      let _ ← book token action
      let nonce ← a.spend
      return answer nonce : Handler β).DecidedBy s [check] := by
  refine .cons (fun hcheck => ?_) fun hcheck => .of_succeeds ?_
  · exact run_bind_of_error (run_book_of_error hp (hnot hcheck))
  · obtain ⟨q, hq, hsolvent⟩ := hok hcheck
    have hbook := book_eq_ok.mpr ⟨p, hp, hq, hsolvent, rfl⟩
    have hspend : a.spend.Succeeds (s.save (.pool token) q) := a.succeeds_spend hunused token q
    obtain ⟨b, t, hrest⟩ := hspend.bind fun nonce t _ => Succeeds.pure (answer nonce) t
    exact ⟨b, t, (run_bind_of_ok hbook).trans hrest⟩

end Handler.DecidedBy

variable {context : Context} {config : Config} {s : Store} {p : Pool}

/-! ### Deposits -/

/-- The checks of a deposit, in order, with the settings and the pool of the token in a store. A
commission of no more than the amount is in range, so the check of its sum tells only which refusal
comes first. -/
def Deposit.checks (d : Deposit) (recover : Recovery) (context : Context) (config : Config)
    (s : Store) (p : Pool) : List Check :=
  let terms := d.consent.terms
  let share := Commission.share d.amount config.stablePercent
  let commission := share + terms.gasCommission.val
  [⟨config.paused = false, .bridgePaused⟩,
   ⟨Address.IsValid d.token, .invalidTokenAddress⟩,
   ⟨terms.destinationAddress ≠ "", .invalidDestinationAddress⟩,
   ⟨terms.destinationChain ≠ "", .invalidDestinationChain⟩,
   ⟨d.amount ≠ 0, .invalidAmount⟩,
   ⟨context.seconds ≤ terms.deadline, .invalidSignature⟩,
   ⟨s.isUsed terms.nonce = .ok false, .alreadyUsedSignature terms.nonce⟩,
   ⟨config.Signed recover (d.authorization context).signedDigest d.consent.signature,
    .invalidSignature⟩,
   ⟨commission < Amount.size, .overflow (.sum (.capped share) terms.gasCommission)⟩,
   ⟨commission ≤ d.amount.val, .commissionGreaterThanAmount (.capped commission) d.amount⟩,
   ⟨p.held.val + d.amount.val < Amount.size, .overflow (.sum p.held d.amount)⟩]

/-- **The checks of a deposit decide** on every well-formed store. -/
theorem Deposit.decided_book (d : Deposit) (signer? : Word → Bytes → Option EthAddress)
    (context : Context) (hs : s.WellFormed) (hconfig : s.config = .ok config) :
    ∃ p, s.pool d.token = .ok p ∧
      (d.book (.ofOption signer?) context).DecidedBy s
        (d.checks (.ofOption signer?) context config s p) := by
  have hsound : config.Sound := hs.sound_of_config hconfig
  obtain ⟨trusted, htrusted⟩ := hsound.signerIdentity
  obtain ⟨used, hused⟩ := hs.isUsed d.consent.terms.nonce
  obtain ⟨p, hp, hsolvent⟩ := hs.pool d.token
  refine ⟨p, hp, ?_⟩
  rw [book, checks]
  refine .bind_of_ok (Handler.ask_eq_ok.mpr ⟨hconfig, rfl⟩) ?_
  refine .require_bind (Bool.not_eq_true' _).to_iff ?_
  -- the token, the destination and the amount
  refine .require_bind Iff.rfl ?_
  refine .require_bind Iff.rfl ?_
  refine .require_bind Iff.rfl ?_
  refine .require_bind Iff.rfl ?_
  refine .refuseAfter_bind ?_
  refine .bind_of_ok (Handler.accept_eq_ok.mpr ⟨htrusted, rfl⟩) ?_
  refine .verify_bind signer? (Config.signerIdentity_eq_ok.mp htrusted) hused fun hunused => ?_
  refine .total_bind hsound.le_hundredPercent fun hle => ?_
  have hcommission : Amount.capped (Commission.share d.amount config.stablePercent +
      d.consent.terms.gasCommission.val) ≤ d.amount :=
    (Amount.val_capped (Nat.lt_of_le_of_lt hle d.amount.val_lt)).trans_le hle
  refine .book_spend hunused hp (fun hsum => ?_) fun hnot => ?_
  · obtain ⟨q, hq⟩ := PoolAction.exists_run_deposit hsolvent hcommission hsum
    exact ⟨q, hq, (PoolAction.deposit_eq_ok.mp hq).2.2.2⟩
  · exact PoolAction.run_deposit_of_size_le hcommission (Nat.le_of_not_lt hnot)

/-- **Which deposits are accepted.** On the store of every run from the empty store that has
settings, the outcome of a deposit is decided by its checks: whether a user calls the bridge, or a
token contract reports tokens that come from an account with an address and along with a hook. -/
theorem Command.deposit_decided (signer? : Word → Bytes → Option EthAddress) (calls : List Call)
    (config : Config) (context : Context) (sender : String) :
    let recover := Recovery.ofOption signer?
    let s := Call.run recover calls ∅
    s.config = .ok config →
      (∀ request : DepositRequest, ∃ p, s.pool request.token = .ok p ∧
        ((bridgeIn request).handle recover context sender).DecidedBy s
          ((Deposit.ofRequest sender request).checks recover context config s p)) ∧
      ∀ (notice : TokenNotice) (consent : DepositConsent),
        Address.IsValid notice.sender → Hook.read? notice.message = some (.bridgeIn consent) →
          let d : Deposit := ⟨notice.sender, sender, notice.amount, consent, .received⟩
          ∃ p, s.pool sender = .ok p ∧
            ((receive notice).handle recover context sender).DecidedBy s
              (d.checks recover context config s p) := by
  intro recover s hconfig
  have hs : s.WellFormed := Call.run_wellFormed signer? calls Store.WellFormed.empty
  constructor
  · exact fun request =>
      (Deposit.ofRequest sender request).decided_book signer? context hs hconfig
  · intro notice consent hsender hhook d
    have hnotice : Deposit.ofNotice sender notice = .ok d :=
      Deposit.ofNotice_eq_ok.mpr ⟨hsender, consent, hhook, rfl⟩
    obtain ⟨p, hp, hdecided⟩ := d.decided_book signer? context hs hconfig
    exact ⟨p, hp, hdecided.congr (run_handle_of_posting (posting?_receive hnotice))⟩

/-- A token contract reports a hundred units at four percent: with ninety-six more for the gas, all
of them go into the commission; with ninety-seven, the commission is one more than the deposit. -/
theorem Command.deposit_decided_of_notice :
    let trusted : EthAddress := Vector.replicate 20 1
    let signer? : Word → Bytes → Option EthAddress := fun _ _ => some trusted
    let recover := Recovery.ofOption signer?
    let context : Context := ⟨0, "network", "bridge"⟩
    let setup : Instantiation := ⟨none, trusted.text, none⟩
    let calls : List Call := [.instantiate context "founder" (writeJson setup)]
    let s := Call.run recover calls ∅
    let config : Config := ⟨"founder", trusted.toList, 400, false⟩
    let hook (gas : Amount) : Hook :=
      .bridgeIn ⟨⟨gas, "chain", "address", 5, 7, 1⟩, [0]⟩
    let notice (gas : Amount) : TokenNotice :=
      ⟨"user", ⟨100, by decide⟩, Bytes.ofText (writeJson (hook gas))⟩
    s.config = .ok config ∧
      ((receive (notice ⟨96, by decide⟩)).handle recover context "token").Succeeds s ∧
      ((receive (notice ⟨97, by decide⟩)).handle recover context "token").run.run s =
        (.error (.rejected
          (.commissionGreaterThanAmount ⟨101, by decide⟩ ⟨100, by decide⟩)), s) := by
  intro trusted signer? recover context setup calls s config hook notice
  have htoken : Address.IsValid "token" := by decide +kernel
  have huser : Address.IsValid "user" := by decide +kernel
  obtain ⟨hconfig, hbooks⟩ : s.config = .ok config ∧ (∅ : Store).SameBooks s :=
    Call.run_instantiation rfl (by decide +kernel) (by decide)
  have hunused : s.isUsed 7 = .ok false := hbooks.isUsed_of_empty 7
  have hempty : s.pool "token" = .ok .empty := hbooks.pool_of_empty "token"
  have hsigned (digest : Word) (signature : Bytes) : config.Signed recover digest signature :=
    ⟨trusted, by decide, rfl⟩
  have hhook (gas : Amount) : Hook.read? (notice gas).message = some (hook gas) := by
    dsimp only [notice]
    exact Hook.read?_writeJson (hook gas)
  let d (gas : Amount) : Deposit :=
    ⟨"user", "token", ⟨100, by decide⟩, ⟨⟨gas, "chain", "address", 5, 7, 1⟩, [0]⟩, .received⟩
  have hdecided (gas : Amount) : ((receive (notice gas)).handle recover context "token").DecidedBy s
      ((d gas).checks recover context config s .empty) := by
    obtain ⟨-, hreceived⟩ := deposit_decided signer? calls config context "token" hconfig
    obtain ⟨p, hp, hchecks⟩ := hreceived (notice gas) _ huser (hhook gas)
    obtain rfl : p = .empty := Except.ok.inj (hp.symm.trans hempty)
    exact hchecks
  refine ⟨hconfig, ?_, ?_⟩
  · refine (hdecided ⟨96, by decide⟩).succeeds_iff.mpr ?_
    simp only [Deposit.checks, List.forall_mem_cons]
    exact ⟨rfl, htoken, by decide, by decide, by decide, by decide, hunused, hsigned _ _,
      by decide, by decide, by decide, List.forall_mem_nil _⟩
  · -- the check that fails is the tenth one
    let checks := (d ⟨97, by decide⟩).checks recover context config s .empty
    have hfront : ∀ passed ∈ checks.take 9, passed.condition := by
      simp only [checks, Deposit.checks, List.take, List.forall_mem_cons]
      exact ⟨rfl, htoken, by decide, by decide, by decide, by decide, hunused, hsigned _ _,
        by decide, List.forall_mem_nil _⟩
    have hcommission :
        Amount.capped (Commission.share ⟨100, by decide⟩ 400 + 97) = ⟨101, by decide⟩ := by
      decide
    rw [← hcommission]
    exact (hdecided ⟨97, by decide⟩).refused (checks.take 9) _ _ rfl hfront (by decide)

/-! ### Releases -/

/-- The checks of a release, in order, with the settings and the pool of the token in a store. -/
def ReleaseRequest.checks (q : ReleaseRequest) (recover : Recovery) (context : Context)
    (config : Config) (s : Store) (p : Pool) : List Check :=
  let terms := q.terms
  [⟨config.paused = false, .bridgePaused⟩,
   ⟨Address.IsValid terms.token, .invalidTokenAddress⟩,
   ⟨Address.IsValid terms.recipient, .invalidRecipientAddress⟩,
   ⟨terms.amount ≠ 0, .invalidAmount⟩,
   ⟨context.seconds ≤ terms.deadline, .invalidSignature⟩,
   ⟨s.isUsed terms.nonce = .ok false, .alreadyUsedSignature terms.nonce⟩,
   ⟨config.Signed recover (Release.authorization context terms).signedDigest q.signature,
    .invalidSignature⟩,
   ⟨terms.amount.val ≤ p.held.val - p.reserved.val,
    .amountExceedBridgePool terms.amount (p.held.excess p.reserved)⟩]

/-- **The checks of a release decide** on every well-formed store. -/
theorem Release.decided_present (q : ReleaseRequest) (signer? : Word → Bytes → Option EthAddress)
    (context : Context) (hs : s.WellFormed) (hconfig : s.config = .ok config) :
    ∃ p, s.pool q.terms.token = .ok p ∧ p.Solvent ∧
      (present (.ofOption signer?) context q).DecidedBy s
        (q.checks (.ofOption signer?) context config s p) := by
  obtain ⟨trusted, htrusted⟩ := (hs.sound_of_config hconfig).signerIdentity
  obtain ⟨used, hused⟩ := hs.isUsed q.terms.nonce
  obtain ⟨p, hp, hsolvent⟩ := hs.pool q.terms.token
  refine ⟨p, hp, hsolvent, ?_⟩
  rw [present, ReleaseRequest.checks]
  refine .bind_of_ok (Handler.ask_eq_ok.mpr ⟨hconfig, rfl⟩) ?_
  refine .require_bind (Bool.not_eq_true' _).to_iff ?_
  refine .checkTerms_bind ?_
  refine .refuseAfter_bind ?_
  refine .bind_of_ok (Handler.accept_eq_ok.mpr ⟨htrusted, rfl⟩) ?_
  refine .verify_bind signer? (Config.signerIdentity_eq_ok.mp htrusted) hused fun hunused => ?_
  refine .book_spend hunused hp (fun hle => ?_) fun hnot => ?_
  · obtain ⟨p', hrun⟩ := PoolAction.exists_run_release hsolvent hle
    exact ⟨p', hrun, (PoolAction.release_eq_ok.mp hrun).2.2⟩
  · exact PoolAction.run_release_of_lt (Nat.lt_of_not_le hnot)

/-- **Which releases are accepted.** On the store of every run from the empty store that has
settings, the outcome of a release by the trusted signer is decided by its checks, whoever presents
it; and the pool of the token is solvent, so that the last check is about an exact difference. -/
theorem Command.release_decided (signer? : Word → Bytes → Option EthAddress) (calls : List Call)
    (config : Config) (context : Context) (sender : String) (q : ReleaseRequest) :
    let recover := Recovery.ofOption signer?
    let s := Call.run recover calls ∅
    s.config = .ok config →
      ∃ p, s.pool q.terms.token = .ok p ∧ p.Solvent ∧
        ((transferOut q).handle recover context sender).DecidedBy s
          (q.checks recover context config s p) := by
  intro recover s hconfig
  have hs : s.WellFormed := Call.run_wellFormed signer? calls Store.WellFormed.empty
  exact Release.decided_present q signer? context hs hconfig

/-- Behind a deposit of a hundred units, of which five are commission, anybody may present a release
of the other ninety-five, but not of one more. -/
theorem Command.release_decided_of_deposit :
    let trusted : EthAddress := Vector.replicate 20 1
    let signer? : Word → Bytes → Option EthAddress := fun _ _ => some trusted
    let recover := Recovery.ofOption signer?
    let context : Context := ⟨0, "network", "bridge"⟩
    let setup : Instantiation := ⟨none, trusted.text, none⟩
    let consent : DepositConsent := ⟨⟨⟨1, by decide⟩, "chain", "address", 5, 7, 1⟩, [0]⟩
    let request : DepositRequest := ⟨"token", ⟨100, by decide⟩, consent⟩
    let calls : List Call :=
      [.instantiate context "founder" (writeJson setup),
        .execute context "user" (writeJson (Command.bridgeIn request))]
    let s := Call.run recover calls ∅
    let config : Config := ⟨"founder", trusted.toList, 400, false⟩
    let release (amount : Amount) : ReleaseRequest :=
      ⟨⟨"token", "recipient", amount, 0, 5, 8, 1⟩, [0]⟩
    s.config = .ok config ∧
      ((transferOut (release ⟨95, by decide⟩)).handle recover context "anybody").Succeeds s ∧
      ((transferOut (release ⟨96, by decide⟩)).handle recover context "anybody").run.run s =
        (.error (.rejected (.amountExceedBridgePool ⟨96, by decide⟩ ⟨95, by decide⟩)), s) := by
  intro trusted signer? recover context setup consent request calls s config release
  have htoken : Address.IsValid "token" := by decide +kernel
  have hrecipient : Address.IsValid "recipient" := by decide +kernel
  have hsigned (digest : Word) (signature : Bytes) : config.Signed recover digest signature :=
    ⟨trusted, by decide, rfl⟩
  let after : Pool := ⟨⟨100, by decide⟩, ⟨5, by decide⟩⟩
  obtain ⟨hconfig, hafter, -, hmarks⟩ : s.config = .ok config ∧ s.pool "token" = .ok after ∧
      (∀ token, token ≠ "token" → s.pool token = .ok .empty) ∧
      ∀ n, s.isUsed n = .ok (decide (n = 7)) :=
    Call.run_instantiation_bridgeIn rfl (by decide +kernel) (by decide)
      ⟨rfl, htoken, by decide, by decide, by decide, by decide⟩ (hsigned _ _)
      (Commission.total_eq_ok.mpr ⟨by decide, by decide⟩)
  have hstill : s.isUsed 8 = .ok false := hmarks 8
  have hdecided (amount : Amount) :
      ((transferOut (release amount)).handle recover context "anybody").DecidedBy s
        ((release amount).checks recover context config s after) := by
    obtain ⟨p, hp, -, hchecks⟩ :=
      release_decided signer? calls config context "anybody" (release amount) hconfig
    obtain rfl : p = after := Except.ok.inj (hp.symm.trans hafter)
    exact hchecks
  refine ⟨hconfig, ?_, ?_⟩
  · refine (hdecided ⟨95, by decide⟩).succeeds_iff.mpr ?_
    simp only [ReleaseRequest.checks, List.forall_mem_cons]
    exact ⟨rfl, htoken, hrecipient, by decide, by decide, hstill, hsigned _ _, by decide,
      List.forall_mem_nil _⟩
  · -- the check that fails is the last one
    let checks := (release ⟨96, by decide⟩).checks recover context config s after
    have hfront : ∀ passed ∈ checks.take 7, passed.condition := by
      simp only [checks, ReleaseRequest.checks, List.take, List.forall_mem_cons]
      exact ⟨rfl, htoken, hrecipient, by decide, by decide, hstill, hsigned _ _,
        List.forall_mem_nil _⟩
    exact (hdecided ⟨96, by decide⟩).refused (checks.take 7) _ _ rfl hfront (by decide)

end TokenCustody
