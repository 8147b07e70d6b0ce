import TokenCustody.Proofs.Atomicity

/-!
# Both ways of a deposit agree

A deposit is asked for by its user, who lets the bridge pull the tokens, or it is reported by the
token contract, which has moved them already. The two requests say the same in different places, and
the accounts that the bridge trusts for them differ too: the user is the sender of the one, and the
token the sender of the other. They give the same deposit up to its funding, and the funding decides
over the calls of the response alone (`Deposit.book_funding`). So either both are refused for the
same reason, or both leave the same store and announce the same
(`Command.bridgeIn_receive_agree`).
-/

namespace TokenCustody

variable {recover : Recovery} {context : Context}

/-- **How a deposit is funded** decides over the calls of the response, and over nothing else. -/
theorem Deposit.book_funding (d : Deposit) (funding : Funding) :
    Deposit.book recover context { d with funding } =
      (fun r => { r with calls := Deposit.calls { d with funding } context }) <$>
        d.book recover context := by
  simp only [book, map_bind, map_pure]
  rfl

namespace Command

/-- A notice with a hook, from an account that has an address, is handled as the deposit that it
reports. -/
theorem run_receive {token : String} {notice : TokenNotice} {consent : DepositConsent} {s : Store}
    (hsender : Address.IsValid notice.sender)
    (hhook : Hook.read? notice.message = some (.bridgeIn consent)) :
    ((receive notice).handle recover context token).run.run s =
      (Deposit.book recover context
        ⟨notice.sender, token, notice.amount, consent, .received⟩).run.run s := by
  have hnotice : Deposit.ofNotice token notice =
      .ok ⟨notice.sender, token, notice.amount, consent, .received⟩ :=
    Deposit.ofNotice_eq_ok.mpr ⟨hsender, consent, hhook, rfl⟩
  exact Handler.run_bind_of_ok (Handler.host_eq_ok.mpr ⟨hnotice, rfl⟩)

/-- **The two ways of a deposit agree.** A user asks for a deposit, or the token contract reports it
with a message of the user's that reads as the same consent. Either both are refused for the same
reason, and nothing is written; or both leave the same store, and their responses have the same
event and the same attributes. The user's own deposit gives one order, which pulls the amount from
the user to the bridge, and the reported one gives none. -/
theorem bridgeIn_receive_agree (recover : Recovery) (context : Context) (user : String)
    (request : DepositRequest) (message : Bytes) (s : Store) (huser : Address.IsValid user)
    (hhook : Hook.read? message = some (.bridgeIn request.consent)) :
    let pulled := ((bridgeIn request).handle recover context user).run.run s
    let notice : TokenNotice := ⟨user, request.amount, message⟩
    let pushed := ((receive notice).handle recover context request.token).run.run s
    (∃ failure, pulled = (.error failure, s) ∧ pushed = (.error failure, s)) ∨
      ∃ r t event, pulled = (.ok r, t) ∧ pushed = (.ok { r with calls := [] }, t) ∧
        r.events = [event] ∧
        r.calls =
          [.ofOrder request.token (.transferFrom user context.bridge request.amount)] := by
  intro pulled notice pushed
  have hpushed : pushed =
      (pulled.1.map fun r => { r with calls := [] }, pulled.2) := by
    refine (run_receive huser hhook).trans ?_
    rw [← Handler.run_map]
    exact congrArg (fun h : Handler Response => h.run.run s)
      ((Deposit.ofRequest user request).book_funding .received)
  rcases hpulled : pulled with ⟨failure | r, t⟩
  · obtain rfl : t = s := (bridgeIn request).atomic_handle s failure t hpulled
    rw [hpulled] at hpushed
    exact .inl ⟨failure, rfl, hpushed⟩
  · rw [hpulled] at hpushed
    obtain ⟨config, commission, p, q, -, -, -, -, -, -, -, rfl, -⟩ :=
      Deposit.book_eq_ok.mp hpulled
    exact .inr ⟨_, t, _, rfl, hpushed, rfl, rfl⟩

/-- A deposit of a hundred units in both ways, at four percent and one unit of gas. -/
theorem bridgeIn_receive_agree_of_consent :
    let signer : EthAddress := Vector.replicate 20 1
    let recover : Recovery := fun _ _ => .ok signer
    let context : Context := ⟨0, "network", "bridge"⟩
    let consent : DepositConsent := ⟨⟨⟨1, by decide⟩, "chain", "address", 5, 7, 1⟩, [0]⟩
    let request : DepositRequest := ⟨"token", ⟨100, by decide⟩, consent⟩
    let message := Bytes.ofText (writeJson (Hook.bridgeIn consent))
    let s := (∅ : Store).save .config ⟨"owner", signer.toList, 400, false⟩
    let pulled := ((bridgeIn request).handle recover context "user").run.run s
    let notice : TokenNotice := ⟨"user", ⟨100, by decide⟩, message⟩
    let pushed := ((receive notice).handle recover context "token").run.run s
    ∃ r t event, pulled = (.ok r, t) ∧ pushed = (.ok { r with calls := [] }, t) ∧
      r.events = [event] ∧
      r.calls = [.ofOrder "token" (.transferFrom "user" "bridge" ⟨100, by decide⟩)] := by
  intro signer recover context consent request message s pulled notice pushed
  have hagree := bridgeIn_receive_agree recover context "user" request message s
    (by decide +kernel) (Hook.read?_writeJson (.bridgeIn consent))
  refine hagree.resolve_left ?_
  rintro ⟨failure, hfails, -⟩
  have hconfig : s.config = .ok ⟨"owner", signer.toList, 400, false⟩ := Store.config_save ..
  have hpool : s.pool "token" = .ok .empty := by
    rw [Store.pool_save_of_ne _ (by simp), Store.pool_empty]
  have hunused : s.isUsed 7 = .ok false := by
    rw [Store.isUsed_save_of_ne _ (by simp), Store.isUsed_empty]
  have hdeposit : (PoolAction.deposit request.amount ⟨5, by decide⟩).run.run .empty =
      (.ok (), ⟨⟨100, by decide⟩, ⟨5, by decide⟩⟩) :=
    PoolAction.deposit_eq_ok.mpr ⟨by decide, rfl, rfl, by decide⟩
  have hadmissible : (Deposit.ofRequest "user" request).Admissible context
      ⟨"owner", signer.toList, 400, false⟩ :=
    ⟨rfl, by decide +kernel, by decide, by decide, by decide, by decide⟩
  have hbooked : pulled = (.ok _, _) :=
    Deposit.book_eq_ok.mpr ⟨_, _, _, _, hconfig, hadmissible, hunused, ⟨signer, by decide, rfl⟩,
      Commission.total_eq_ok.mpr ⟨by decide, by decide⟩, hpool, hdeposit, rfl, rfl⟩
  cases hbooked.symm.trans hfails

end Command

end TokenCustody
