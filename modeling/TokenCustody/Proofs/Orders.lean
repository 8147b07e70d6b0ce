import TokenCustody.Proofs.Custody

/-!
# Every order is justified

What the bridge orders from token contracts decides over other people's tokens. A command orders at
most one movement, and which one is told by `Command.order?`: a deposit is pulled from the sender
and from nobody else, and what leaves the bridge goes to the recipient of the command, or to the
owner. An order to let tokens go has the owner behind it, or the trusted signer (`Command.Backed`).
`Command.order_justified` says that a command which succeeds gives this order and no other, to the
contract whose pool it works on, and for the amount by which the pool changes.
-/

namespace TokenCustody

/-- The amount of an order. -/
def TokenOrder.amount : TokenOrder → Amount
  | .transfer _ amount => amount
  | .transferFrom _ _ amount => amount

namespace Command

/-- The order that a command gives, if it gives one, and the token contract that it goes to. -/
def order? (context : Context) (config : Config) (sender : String) :
    Command → Option (String × TokenOrder)
  | .bridgeIn q => some (q.token, .transferFrom sender context.bridge q.amount)
  | .transferOut q => some (q.terms.token, .transfer q.terms.recipient q.terms.amount)
  | .bridgeOut q => some (q.token, .transfer q.recipient q.amount)
  | .withdrawCommission token amount => some (token, .transfer config.owner amount)
  | .receive _ | .setStableCommissionPercent _ | .pause | .unpause => none
  | .proposeOwner _ | .acceptOwnership | .cancelOwnershipProposal => none

/-- Who must be behind a command for tokens to leave the bridge: the owner as its sender, or the
trusted signer, who has signed the terms of the release. -/
def Backed (recover : Recovery) (context : Context) (config : Config) (sender : String) :
    Command → Prop
  | .bridgeOut _ | .withdrawCommission .. => sender = config.owner
  | .transferOut q =>
    config.Signed recover (Release.authorization context q.terms).signedDigest q.signature
  | _ => True

end Command

/-- A call carries out an order: it goes to the contract of the token, brings no coins, and its
message reads as the order; and the pool of the token changes by the amount of the order. -/
structure TokenCall.CarriesOut (call : TokenCall) (token : String) (order : TokenOrder)
    (s t : Store) : Prop where
  contract_eq : call.contract = token
  coins_eq : call.coins = []
  order_eq : call.order? = some order
  natAbs_held : ∃ before after, s.pool token = .ok before ∧ t.pool token = .ok after ∧
    ((after.held.val : ℤ) - before.held.val).natAbs = order.amount.val

variable {recover : Recovery} {context : Context} {sender : String} {s t : Store} {r : Response}

namespace Posting

variable {p : Posting} {config : Config} {before after : Pool} {order : TokenOrder}

/-- What a posting orders is what it moves. -/
theorem natAbs_moved (h : p.calls context config = [.ofOrder p.token order]) :
    ((p.deposited : ℤ) - p.released - p.withdrawn).natAbs = order.amount.val := by
  have horder := congrArg (List.map TokenCall.order?) h
  cases p with
  | deposit d =>
    cases hfunding : d.funding with
    | allowance =>
      simp only [calls, Deposit.calls, hfunding, List.map_cons, TokenCall.order?_ofOrder] at horder
      obtain rfl := Option.some.inj (List.singleton_inj.mp horder)
      simp [deposited, released, withdrawn, TokenOrder.amount]
    | received =>
      rw [calls, Deposit.calls, hfunding] at horder
      cases horder
  | settlement | release | withdrawal =>
    simp only [calls, List.map_cons, TokenCall.order?_ofOrder] at horder
    obtain rfl := Option.some.inj (List.singleton_inj.mp horder)
    simp [deposited, released, withdrawn, TokenOrder.amount]

/-- The order of a posting is carried out by the call that gives it. -/
theorem Booked.carriesOut (hb : p.Booked context config s before after r t)
    (hcalls : p.calls context config = [.ofOrder p.token order]) :
    (TokenCall.ofOrder p.token order).CarriesOut p.token order s t where
  contract_eq := rfl
  coins_eq := rfl
  order_eq := TokenCall.order?_ofOrder p.token order
  natAbs_held := by
    have hafter : t.pool p.token = .ok after := by
      rw [hb.store_eq]
      exact p.pool_write s after
    have hheld := hb.held_eq
    refine ⟨before, after, hb.before_eq, hafter, ?_⟩
    rw [← natAbs_moved hcalls]
    omega

/-- A posting that succeeds has its order carried out. -/
theorem exists_carriesOut (h : (p.handle recover context sender).run.run s = (.ok r, t))
    (hconfig : s.config = .ok config)
    (hcalls : p.calls context config = [.ofOrder p.token order]) :
    ∃ call, r.calls = [call] ∧ call.CarriesOut p.token order s t := by
  obtain ⟨config', before, after, hb⟩ := exists_booked h
  obtain rfl : config' = config := Except.ok.inj (hb.config_eq.symm.trans hconfig)
  exact ⟨.ofOrder p.token order, hb.calls_eq.trans hcalls, hb.carriesOut hcalls⟩

end Posting

/-- The deposit of a notice has been received already. -/
theorem Deposit.funding_ofNotice {token : String} {notice : TokenNotice} {d : Deposit}
    (h : ofNotice token notice = .ok d) : d.funding = .received := by
  obtain ⟨-, consent, -, rfl⟩ := ofNotice_eq_ok.mp h
  rfl

namespace Command

variable {c : Command}

/-- **A command that succeeds is backed**, if tokens are to leave the bridge. -/
theorem backed_of_eq_ok (h : (c.handle recover context sender).run.run s = (.ok r, t)) :
    ∃ config, s.config = .ok config ∧ c.Backed recover context config sender := by
  cases c with
  | bridgeIn request =>
    obtain ⟨config, _, _, _, hconfig, -⟩ := Deposit.book_eq_ok.mp h
    exact ⟨config, hconfig, trivial⟩
  | receive notice =>
    obtain ⟨d, -, hbook⟩ := Handler.host_bind_eq_ok.mp h
    obtain ⟨config, _, _, _, hconfig, -⟩ := Deposit.book_eq_ok.mp hbook
    exact ⟨config, hconfig, trivial⟩
  | transferOut request =>
    obtain ⟨config, _, _, hconfig, -, -, hsigned, -⟩ := Release.present_eq_ok.mp h
    exact ⟨config, hconfig, hsigned⟩
  | bridgeOut settlement =>
    obtain ⟨config, _, _, hconfig, howner, -⟩ := Release.settle_eq_ok.mp h
    exact ⟨config, hconfig, howner⟩
  | withdrawCommission token amount =>
    obtain ⟨config, _, _, hconfig, howner, -⟩ := Release.withdrawCommission_eq_ok.mp h
    exact ⟨config, hconfig, howner⟩
  | setStableCommissionPercent percent =>
    obtain ⟨config, hconfig, -⟩ := Administration.setStablePercent_eq_ok.mp h
    exact ⟨config, hconfig, trivial⟩
  | pause | unpause =>
    obtain ⟨config, hconfig, -⟩ := Administration.setPaused_eq_ok.mp h
    exact ⟨config, hconfig, trivial⟩
  | proposeOwner newOwner =>
    obtain ⟨config, hconfig, -⟩ := Administration.proposeOwner_eq_ok.mp h
    exact ⟨config, hconfig, trivial⟩
  | acceptOwnership =>
    obtain ⟨config, -, hconfig, -⟩ := Administration.acceptOwnership_eq_ok.mp h
    exact ⟨config, hconfig, trivial⟩
  | cancelOwnershipProposal =>
    obtain ⟨config, _, hconfig, -⟩ := Administration.cancelProposal_eq_ok.mp h
    exact ⟨config, hconfig, trivial⟩

/-- **A command that succeeds gives its order**, and no other. -/
theorem calls_of_eq_ok {config : Config}
    (h : (c.handle recover context sender).run.run s = (.ok r, t))
    (hconfig : s.config = .ok config) :
    match c.order? context config sender with
    | none => r.calls = []
    | some (token, order) => ∃ call, r.calls = [call] ∧ call.CarriesOut token order s t := by
  cases c with
  | bridgeIn request =>
    let p : Posting := .deposit (.ofRequest sender request)
    have hp : (p.handle recover context sender).run.run s = (.ok r, t) := h
    exact Posting.exists_carriesOut hp hconfig rfl
  | receive notice =>
    obtain ⟨d, hnotice, hbook⟩ := Handler.host_bind_eq_ok.mp h
    let p : Posting := .deposit d
    have hp : (p.handle recover context sender).run.run s = (.ok r, t) := hbook
    obtain ⟨_, _, _, hb⟩ := Posting.exists_booked hp
    have hnone : d.calls context = [] := by rw [Deposit.calls, Deposit.funding_ofNotice hnotice]
    exact hb.calls_eq.trans hnone
  | transferOut request =>
    let p : Posting := .release request
    have hp : (p.handle recover context sender).run.run s = (.ok r, t) := h
    exact Posting.exists_carriesOut hp hconfig rfl
  | bridgeOut settlement =>
    let p : Posting := .settlement settlement
    have hp : (p.handle recover context sender).run.run s = (.ok r, t) := h
    exact Posting.exists_carriesOut hp hconfig rfl
  | withdrawCommission token amount =>
    let p : Posting := .withdrawal token amount
    have hp : (p.handle recover context sender).run.run s = (.ok r, t) := h
    exact Posting.exists_carriesOut hp hconfig rfl
  | _ =>
    -- the commands of administration order nothing
    obtain ⟨-, hcalls, -⟩ := sameBooks_of_eq_ok rfl h
    exact hcalls

/-- **Every order is justified.** A command that succeeds gives the order that it stands for, and no
other; it has the owner or the trusted signer behind it, if tokens are to leave the bridge; and the
pool of the token changes by the amount of the order. -/
theorem order_justified (h : (c.handle recover context sender).run.run s = (.ok r, t)) :
    ∃ config, s.config = .ok config ∧ c.Backed recover context config sender ∧
      match c.order? context config sender with
      | none => r.calls = []
      | some (token, order) => ∃ call, r.calls = [call] ∧ call.CarriesOut token order s t := by
  obtain ⟨config, hconfig, hbacked⟩ := backed_of_eq_ok h
  exact ⟨config, hconfig, hbacked, calls_of_eq_ok h hconfig⟩

/-- The owner releases five of the seven units that are not reserved. -/
theorem order_justified_of_settlement :
    let context : Context := ⟨0, "network", "bridge"⟩
    let config : Config := ⟨"owner", List.replicate 20 1, 400, false⟩
    let before : Pool := ⟨⟨10, by decide⟩, ⟨3, by decide⟩⟩
    let after : Pool := ⟨⟨5, by decide⟩, ⟨3, by decide⟩⟩
    let settlement : Settlement := ⟨"token", "recipient", ⟨5, by decide⟩, 1, "chain", "address"⟩
    let c : Command := .bridgeOut settlement
    let s := ((∅ : Store).save .config config).save (.pool "token") before
    let t := s.save (.pool "token") after
    let r := Release.settlementResponse settlement
    (c.handle Signature.recovery context "owner").run.run s = (.ok r, t) ∧
      ∃ config, s.config = .ok config ∧ c.Backed Signature.recovery context config "owner" ∧
        match c.order? context config "owner" with
        | none => r.calls = []
        | some (token, order) => ∃ call, r.calls = [call] ∧ call.CarriesOut token order s t := by
  intro context config before after settlement c s t r
  have hconfig : s.config = .ok config := by
    rw [Store.config_save_of_ne _ (by simp), Store.config_save]
  have hbefore : s.pool "token" = .ok before := Store.pool_save ..
  have hrelease : (PoolAction.release settlement.amount).run.run before = (.ok (), after) :=
    PoolAction.release_eq_ok.mpr ⟨rfl, rfl, by decide⟩
  have h : (c.handle Signature.recovery context "owner").run.run s = (.ok r, t) :=
    Release.settle_eq_ok.mpr ⟨config, before, after, hconfig, rfl, by decide +kernel,
      by decide +kernel, by decide, hbefore, hrelease, rfl, rfl⟩
  exact ⟨h, order_justified h⟩

end Command

end TokenCustody
