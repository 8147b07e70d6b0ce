import TokenCustody.Proofs.Blindness
import TokenCustody.Proofs.Footprint
import TokenCustody.Proofs.SingleUse

/-!
# Tokens are kept apart

A call on a token, by a user, by the owner or by the token contract itself, looks at three entries
of the store only: the settings, the pool of the token, and the mark of its nonce if it has one
(`Call.inputs`). Two stores with the same entries there may differ in all other ways, even in
entries that cannot be read: the call ends in the same way on both, and no entry that has been the
same differs afterwards. So whatever is done with other tokens, a call on this one goes on as if it
had not been done, unless its nonce has been consumed by it (`Call.isolated_of_token`).

The relation that carries this is agreement at a set of places, which every write keeps
(`Store.AgreesAt.shares`): the handlers are blind to it as soon as their slots are among the places.
-/

namespace TokenCustody

open Handler (Couples BlindTo)
open Store (Shares)
open Turn (consumed)

variable {R : Store → Store → Prop} {recover : Recovery} {context : Context} {sender : String}

/-! ### Signed requests -/

namespace Approval

variable {nonce : UInt64}

/-- Verifying looks at the nonce only, and approves it if it approves anything. -/
theorem couples_verify {trusted : EthAddress} {digest : Word} {signature : Bytes}
    (hnonce : Shares R (.nonce nonce)) :
    Couples R (fun a a' => a = ⟨nonce⟩ ∧ a' = ⟨nonce⟩)
      (verify recover trusted digest signature nonce)
      (verify recover trusted digest signature nonce) := by
  refine (Handler.blindTo_isUsed hnonce).bind_couples fun used => ?_
  cases used with
  | true => exact .of_run (.error _) (Handler.run_reject _) (Handler.run_reject _)
  | false =>
    refine (BlindTo.accept (recover digest signature)).bind_couples fun signer => ?_
    refine (BlindTo.require (signer = trusted) _).bind_couples fun _ => ?_
    exact .of_run (.ok ⟨rfl, rfl⟩) (Handler.run_pure _) (Handler.run_pure _)

/-- Spending looks at the nonce only. -/
theorem blindTo_spend (hnonce : Shares R (.nonce nonce)) : (spend ⟨nonce⟩).BlindTo R :=
  (Nonce.blindTo_consume hnonce).bind fun _ => .pure nonce

/-- To verify a request, to book it, and then to spend the approval. -/
theorem blindTo_verify_bind {trusted : EthAddress} {digest : Word} {signature : Bytes}
    {f : Approval → Handler Response} (hnonce : Shares R (.nonce nonce))
    (hf : (f ⟨nonce⟩).BlindTo R) :
    (verify recover trusted digest signature nonce >>= f).BlindTo R := by
  refine (couples_verify hnonce).bind fun a a' ha => ?_
  obtain ⟨rfl, rfl⟩ := ha
  exact hf

end Approval

section Signed

variable (hconfig : Shares R .config)

include hconfig

/-- **A deposit** looks at the settings, its pool and its nonce. -/
theorem Deposit.blindTo_book (d : Deposit) (hpool : Shares R (.pool d.token))
    (hnonce : Shares R (.nonce d.consent.terms.nonce)) : (d.book recover context).BlindTo R := by
  refine (Handler.blindTo_config hconfig).bind fun config => ?_
  refine (BlindTo.require _ _).bind fun _ => (BlindTo.require _ _).bind fun _ => ?_
  refine (BlindTo.require _ _).bind fun _ => (BlindTo.require _ _).bind fun _ => ?_
  refine (BlindTo.require _ _).bind fun _ => (BlindTo.accept _).bind fun _ => ?_
  refine (BlindTo.accept _).bind fun signer => Approval.blindTo_verify_bind hnonce ?_
  refine (BlindTo.result _).bind fun commission => ?_
  refine (Handler.blindTo_book hpool _).bind fun _ => ?_
  exact (Approval.blindTo_spend hnonce).bind fun _ => .pure _

/-- **A release by the trusted signer** looks at the settings, its pool and its nonce. -/
theorem Release.blindTo_present (q : ReleaseRequest) (hpool : Shares R (.pool q.terms.token))
    (hnonce : Shares R (.nonce q.terms.nonce)) : (present recover context q).BlindTo R := by
  refine (Handler.blindTo_config hconfig).bind fun config => ?_
  refine (BlindTo.require _ _).bind fun _ => (Release.blindTo_checkTerms _ _ _).bind fun _ => ?_
  refine (BlindTo.accept _).bind fun _ => (BlindTo.accept _).bind fun signer => ?_
  refine Approval.blindTo_verify_bind hnonce ?_
  refine (Handler.blindTo_book hpool _).bind fun _ => ?_
  exact (Approval.blindTo_spend hnonce).bind fun _ => .pure _

end Signed

/-! ### Commands on a token -/

namespace Command

variable {c : Command} {token : String}

/-- The token that a command works on: a token contract that reports a deposit is itself the
token. -/
def token? (sender : String) : Command → Option String
  | .bridgeIn q => some q.token
  | .receive _ => some sender
  | .transferOut q => some q.terms.token
  | .bridgeOut q => some q.token
  | .withdrawCommission token _ => some token
  | .setStableCommissionPercent _ | .pause | .unpause => none
  | .proposeOwner _ | .acceptOwnership | .cancelOwnershipProposal => none

/-- The nonce that a command presents, with a hook that can be read if it reports a deposit. -/
def nonce? : Command → Option UInt64
  | .bridgeIn q => some q.consent.terms.nonce
  | .receive n =>
    match Hook.read? n.message with
    | some (.bridgeIn consent) => some consent.terms.nonce
    | none => none
  | .transferOut q => some q.terms.nonce
  | _ => none

/-- The nonce that a command presents is that of what it asks of the books. -/
theorem nonce?_of_posting {p : Posting} (h : c.posting? sender = some p) : c.nonce? = p.nonce? := by
  cases c with
  | receive notice =>
    obtain ⟨d, hd, rfl⟩ := Option.map_eq_some_iff.mp h
    obtain ⟨-, consent, hhook, rfl⟩ := Deposit.ofNotice_eq_ok.mp (toOption_eq_some.mp hd)
    rw [nonce?, hhook]
    rfl
  | bridgeIn | transferOut | bridgeOut | withdrawCommission =>
    obtain rfl := Option.some.inj h
    rfl
  | _ => cases h

/-- **A command on a token** looks at the settings, the pool of the token and its nonce. -/
theorem blindTo_handle (htoken : c.token? sender = some token) (hconfig : Shares R .config)
    (hpool : Shares R (.pool token)) (hnonce : ∀ n ∈ c.nonce?, Shares R (.nonce n)) :
    (c.handle recover context sender).BlindTo R := by
  have hsettings := Handler.couples_config hconfig
  cases c with
  | bridgeIn request =>
    obtain rfl := Option.some.inj htoken
    exact Deposit.blindTo_book hconfig _ hpool (hnonce _ rfl)
  | receive notice =>
    obtain rfl := Option.some.inj htoken
    refine (Couples.host (Deposit.ofNotice sender notice)).bind fun d d' ⟨hd, heq⟩ => ?_
    obtain ⟨-, consent, hhook, rfl⟩ := Deposit.ofNotice_eq_ok.mp hd
    have hmem : consent.terms.nonce ∈ (receive notice).nonce? := by rw [nonce?, hhook]; rfl
    rw [← heq]
    exact Deposit.blindTo_book hconfig _ hpool (hnonce _ hmem)
  | transferOut request =>
    obtain rfl := Option.some.inj htoken
    exact Release.blindTo_present hconfig request hpool (hnonce _ rfl)
  | bridgeOut settlement =>
    obtain rfl := Option.some.inj htoken
    exact Release.blindTo_settle hsettings hpool
  | withdrawCommission token amount =>
    obtain rfl := Option.some.inj htoken
    exact Release.blindTo_withdrawCommission hsettings hpool
  | _ => cases htoken

/-- A command on a token that succeeds asks something of the books of this token. -/
theorem exists_posting_of_token {s t : Store} {r : Response} (htoken : c.token? sender = some token)
    (h : (c.handle recover context sender).run.run s = (.ok r, t)) :
    ∃ p, c.posting? sender = some p ∧ p.token = token := by
  cases c with
  | receive notice =>
    obtain rfl := Option.some.inj htoken
    obtain ⟨d, hd, -⟩ := Handler.host_bind_eq_ok.mp h
    obtain ⟨-, _, -, rfl⟩ := Deposit.ofNotice_eq_ok.mp hd
    exact ⟨_, posting?_receive hd, rfl⟩
  | bridgeIn | transferOut | bridgeOut | withdrawCommission =>
    exact ⟨_, rfl, Option.some.inj htoken⟩
  | _ => cases htoken

end Command

/-! ### Calls on a token -/

namespace Call

variable {call : Call} {others : List Call} {token : String} {s s' : Store}

/-- The token that a call works on: that of its command, if its message is one. -/
def token? : Call → Option String
  | .execute _ sender message =>
    (Schema.command.read message).toOption.bind fun c : Command => c.token? sender
  | .instantiate .. | .migrate .. => none

/-- The nonce that a call presents. -/
def nonce? : Call → Option UInt64
  | .execute _ _ message =>
    (Schema.command.read message).toOption.bind fun c : Command => c.nonce?
  | .instantiate .. | .migrate .. => none

theorem token?_of_read {message : String} {c : Command}
    (h : Schema.command.read message = .ok c) :
    (Call.execute context sender message).token? = c.token? sender := by
  rw [token?, h]
  rfl

theorem nonce?_of_read {message : String} {c : Command}
    (h : Schema.command.read message = .ok c) :
    (Call.execute context sender message).nonce? = c.nonce? := by
  rw [nonce?, h]
  rfl

/-- The keys of the entries that a call on a token looks at. -/
def inputs (call : Call) (token : String) : List Key :=
  .config :: .pool token :: call.nonce?.toList.map .nonce

/-- **A call on a token** is blind to all differences that leave its inputs as they are. -/
theorem blindTo_handle {places : Set Bytes} (htoken : call.token? = some token)
    (hinputs : ∀ key ∈ call.inputs token, key.bytes ∈ places) :
    (call.handle recover).BlindTo (Store.AgreesAt places) := by
  cases call with
  | instantiate | migrate => cases htoken
  | execute context sender message =>
    obtain ⟨c, hc, hctoken⟩ := Option.bind_eq_some_iff.mp htoken
    have hread : Schema.command.read message = .ok c := toOption_eq_some.mp hc
    have hconfig : Shares (Store.AgreesAt places) .config :=
      Store.AgreesAt.shares (hinputs _ List.mem_cons_self)
    have hpool : Shares (Store.AgreesAt places) (.pool token) :=
      Store.AgreesAt.shares (hinputs _ (List.mem_cons_of_mem _ List.mem_cons_self))
    have hnonce (n : UInt64) (hn : n ∈ c.nonce?) : Shares (Store.AgreesAt places) (.nonce n) := by
      refine Store.AgreesAt.shares (hinputs (.nonce n) ?_)
      simp [inputs, nonce?_of_read hread, Option.mem_def.mp hn]
    refine (Couples.host (Schema.command.read message)).bind fun c' c'' ⟨hc', heq⟩ => ?_
    obtain rfl : c' = c := Except.ok.inj (hc'.symm.trans hread)
    rw [← heq]
    exact Command.blindTo_handle hctoken hconfig hpool hnonce

/-- **A call on another token** changes nothing but the pool of this other token and the nonce that
it consumes. -/
theorem agreesOutside_perform (htoken : call.token? = some token) :
    s.AgreesOutside (.pool token :: (call.turn recover s).nonce?.toList.map .nonce)
      (call.perform recover s).2 := by
  rw [Turn.nonce?, Turn.posted?, turn, perform]
  rcases hrun : (call.handle recover).run.run s with ⟨failure | r, t⟩
  · exact Store.AgreesOutside.refl _ s
  cases call with
  | instantiate | migrate => cases htoken
  | execute context sender message =>
    obtain ⟨c, hc, hctoken⟩ := Option.bind_eq_some_iff.mp htoken
    have hread : Schema.command.read message = .ok c := toOption_eq_some.mp hc
    rw [run_handle_of_read hread] at hrun
    obtain ⟨p, hp, rfl⟩ := Command.exists_posting_of_token hctoken hrun
    have hposting : (Call.execute context sender message).posting? = some p :=
      (posting?_of_read hread).trans hp
    rw [Command.run_handle_of_posting hp] at hrun
    obtain ⟨config, before, after, hbooked⟩ := Posting.exists_booked hrun
    rw [hbooked.store_eq, hposting]
    exact p.agreesOutside_write s after

/-- **Calls on other tokens** leave every entry as it is that is neither the pool of one of these
tokens nor the mark of a nonce that they consume. -/
theorem getElem?_run_of_tokens {key : Key}
    (hothers : ∀ other ∈ others, ∃ token, other.token? = some token ∧ key ≠ .pool token)
    (hkey : ∀ n ∈ consumed (history recover others s), key ≠ .nonce n) :
    (run recover others s)[key.bytes]? = s[key.bytes]? := by
  induction others generalizing s with
  | nil => rfl
  | cons other others ih =>
    obtain ⟨⟨token, htoken, hpool⟩, hrest⟩ := List.forall_mem_cons.mp hothers
    have houtside : key ∉ .pool token :: (other.turn recover s).nonce?.toList.map .nonce := by
      intro hmem
      rcases List.mem_cons.mp hmem with heq | hmem
      · exact hpool heq
      · obtain ⟨n, hn, rfl⟩ := List.mem_map.mp hmem
        exact hkey n (Turn.mem_consumed_cons.mpr (.inl (Option.mem_toList.mp hn))) rfl
    have hfirst : (other.perform recover s).2[key.bytes]? = s[key.bytes]? :=
      (agreesOutside_perform htoken).getElem?_eq houtside
    rw [run_cons, ih hrest fun n hn => hkey n (Turn.mem_consumed_cons.mpr (.inr hn)), hfirst]

/-- On two stores a call ends in the same way, and no entry that has been the same differs
afterwards. -/
structure EndsAlike (recover : Recovery) (call : Call) (s s' : Store) : Prop where
  outcome_eq : (call.perform recover s').1 = (call.perform recover s).1
  entry_eq : ∀ b : Bytes, s'[b]? = s[b]? →
    (call.perform recover s').2[b]? = (call.perform recover s).2[b]?

theorem endsAlike_of_token (recover : Recovery) (htoken : call.token? = some token)
    (h : ∀ key ∈ call.inputs token, s'[key.bytes]? = s[key.bytes]?) :
    call.EndsAlike recover s s' := by
  -- the places of all entries that the two stores share
  let places : Set Bytes := fun b => s'[b]? = s[b]?
  have hblind : (call.handle recover).BlindTo (Store.AgreesAt places) := blindTo_handle htoken h
  obtain ⟨houtcome, hagrees⟩ := perform_of_blindTo hblind fun _ hb => hb
  exact ⟨houtcome, hagrees⟩

/-- **Tokens are kept apart.** A call on a token ends in the same way on all stores that have the
same settings, the same pool of the token and the same mark of the nonce that the call presents, and
leaves the same entries wherever these have been the same, so in particular the same pool and the
same mark. Calls on other tokens leave these inputs as they are, unless they consume the nonce; so
behind them the call ends as if they had not been. -/
theorem isolated_of_token (recover : Recovery) (htoken : call.token? = some token) (s : Store) :
    (∀ s' : Store, (∀ key ∈ call.inputs token, s'[key.bytes]? = s[key.bytes]?) →
      call.EndsAlike recover s s') ∧
    ∀ others : List Call,
      (∀ other ∈ others, ∃ token', other.token? = some token' ∧ token' ≠ token) →
      (∀ n ∈ call.nonce?, n ∉ consumed (history recover others s)) →
        let s' := run recover others s
        (∀ key ∈ call.inputs token, s'[key.bytes]? = s[key.bytes]?) ∧
          call.EndsAlike recover s s' := by
  refine ⟨fun s' h => endsAlike_of_token recover htoken h, fun others hothers hnonce => ?_⟩
  intro s'
  have hinputs : ∀ key ∈ call.inputs token, s'[key.bytes]? = s[key.bytes]? := by
    intro key hkey
    have hpool (token' : String) (hne : token' ≠ token) : key ≠ .pool token' := by
      rintro rfl
      simp [inputs, hne] at hkey
    have hmark (n : UInt64) (hn : n ∈ consumed (history recover others s)) : key ≠ .nonce n := by
      rintro rfl
      exact hnonce n (by simpa [inputs] using hkey) hn
    refine getElem?_run_of_tokens (fun other hother => ?_) hmark
    obtain ⟨token', htoken', hne⟩ := hothers other hother
    exact ⟨token', htoken', hpool token' hne⟩
  exact ⟨hinputs, endsAlike_of_token recover htoken hinputs⟩

/-- The owner releases what is not reserved. He does so all the same where a text stands in the
place of another pool and a nonce has been used, and where he has released something of another
token before. -/
theorem isolated_of_token_of_settlement :
    let context : Context := ⟨0, "network", "bridge"⟩
    let config : Config := ⟨"owner", List.replicate 20 1, 400, false⟩
    let before : Pool := ⟨⟨10, by decide⟩, ⟨3, by decide⟩⟩
    let after : Pool := ⟨⟨3, by decide⟩, ⟨3, by decide⟩⟩
    let settlement (token : String) : Settlement :=
      ⟨token, "recipient", ⟨7, by decide⟩, 1, "chain", "address"⟩
    let call (token : String) := Call.execute context "owner"
      (writeJson (Command.bridgeOut (settlement token)))
    let recover := Signature.recovery
    let s := (((∅ : Store).save .config config).save (.pool "other") before).save
      (.pool "token") before
    let strange : Slot String := ⟨.pool "other", .pool⟩
    let s' := (s.save strange "no pool").save (.nonce 7) true
    let s'' := run recover [call "other"] s
    (call "token").token? = some "token" ∧
      (∀ key ∈ (call "token").inputs "token", s'[key.bytes]? = s[key.bytes]?) ∧
      ((call "token").perform recover s').1 =
        .ok (Release.settlementResponse (settlement "token")) ∧
      ((call "token").perform recover s').2[(Key.pool "token").bytes]? = some (writeJson after) ∧
      ((call "other").perform recover s).1.isOk = true ∧
      ((call "token").perform recover s'').1 =
        .ok (Release.settlementResponse (settlement "token")) := by
  intro context config before after settlement call recover s strange s' s''
  have hread (token : String) : Schema.command.read
      (writeJson (Command.bridgeOut (settlement token))) =
        .ok (Command.bridgeOut (settlement token)) :=
    Schema.read_writeJson ..
  have htoken (token : String) : (call token).token? = some token := token?_of_read (hread token)
  have hnonce : (call "token").nonce? = none := nonce?_of_read (hread "token")
  have hagrees : s.AgreesOutside [.pool "other", .nonce 7] s' :=
    ((Store.AgreesOutside.refl _ s).save (by simp [strange]) _).save (by simp) true
  have hinputs : ∀ key ∈ (call "token").inputs "token", s'[key.bytes]? = s[key.bytes]? := by
    intro key hkey
    refine hagrees.getElem?_eq ?_
    rw [inputs, hnonce] at hkey
    rcases List.mem_cons.mp hkey with rfl | hkey
    · simp
    · obtain rfl := List.mem_singleton.mp hkey
      simp
  have hconfig : s.config = .ok config := by
    rw [Store.config_save_of_ne _ (by simp), Store.config_save_of_ne _ (by simp),
      Store.config_save]
  have hrecipient : Address.IsValid "recipient" := by decide +kernel
  have hamount : (settlement "token").amount ≠ 0 := by decide
  have hrelease : (PoolAction.release (settlement "token").amount).run.run before =
      (.ok (), after) :=
    PoolAction.release_eq_ok.mpr ⟨rfl, rfl, by decide⟩
  have hperform (token : String) (hvalid : Address.IsValid token)
      (hpool : s.pool token = .ok before) : (call token).perform recover s =
        (.ok (Release.settlementResponse (settlement token)), s.save (.pool token) after) := by
    have hsettled : (Release.settle "owner" (settlement token)).run.run s =
        (.ok (Release.settlementResponse (settlement token)), s.save (.pool token) after) :=
      Release.settle_eq_ok.mpr ⟨config, before, after, hconfig, rfl, hvalid, hrecipient, hamount,
        hpool, hrelease, rfl, rfl⟩
    exact perform_eq_ok.mpr (Handler.host_bind_eq_ok.mpr ⟨_, hread token, hsettled⟩)
  have hfirst := hperform "token" (by decide +kernel) (Store.pool_save ..)
  have hother := hperform "other" (by decide +kernel)
    ((Store.pool_save_of_ne _ (by simp) _).trans (Store.pool_save ..))
  obtain ⟨hsame, hbehind⟩ := isolated_of_token recover (htoken "token") s
  -- where the other entries are strange
  obtain ⟨houtcome, hentry⟩ := hsame s' hinputs
  have hpool := hentry (Key.pool "token").bytes (hinputs _ (by simp [inputs]))
  rw [hfirst] at houtcome hpool
  -- behind a call on another token
  have hothers : ∀ other ∈ [call "other"], ∃ token', other.token? = some token' ∧
      token' ≠ "token" :=
    List.forall_mem_singleton.mpr ⟨"other", htoken "other", by decide⟩
  have hunconsumed : ∀ n ∈ (call "token").nonce?,
      n ∉ consumed (history recover [call "other"] s) := by
    rw [hnonce]
    rintro n ⟨⟩
  obtain ⟨-, houtcome', -⟩ := hbehind [call "other"] hothers hunconsumed
  rw [hfirst] at houtcome'
  refine ⟨htoken "token", hinputs, houtcome, hpool.trans Std.ExtTreeMap.getElem?_insert_self, ?_,
    houtcome'⟩
  rw [hother]
  rfl

end Call

end TokenCustody
