import TokenCustody.Bridge.Query
import TokenCustody.Proofs.Blindness
import TokenCustody.Proofs.Posting

/-!
# Pausing leaves the owner's work alone

A bridge that is paused takes no deposits and no signed releases, and nothing else about it is
different. Take two stores that are equal but for the bridge being paused
(`Store.EqualButPaused`), and let the owner release and withdraw, set the percentage, and hand the
bridge over, with migrations and questions in between, but not the question for the settings, which
would tell. Then all these end in the same way on both stores, and behind each of them the stores
are still equal but for the bridge being paused (`Interaction.unaffected_by_pause`).

The commands read the settings and some write them back, so the mark of the pause passes through
them; the judgment on pairs of handlers carries it along, as a relation on the settings that are
read (`Handler.couples_config_of_equalButPaused`) and on the settings that are written
(`Handler.couples_save_config`).
-/

namespace TokenCustody

open Handler (Couples BlindTo)
open Store (Shares)

/-! ### Stores that are equal but for the pause -/

/-- Two stores are equal but for the bridge being paused: both have settings, which are equal but
for that, and all other entries are the same. -/
structure Store.EqualButPaused (s s' : Store) : Prop where
  config : ∃ c c', s.config = .ok c ∧ s'.config = .ok c' ∧ c.EqualButPaused c'
  others : s.AgreesAt {b | b ≠ Key.config.bytes} s'

namespace Store.EqualButPaused

variable {α : Type} {slot : Slot α} {s s' : Store}

/-- Whatever the settings have been, they may be written anew. -/
theorem save_config {c c' : Config} (hothers : s.AgreesAt {b | b ≠ Key.config.bytes} s')
    (heq : c.EqualButPaused c') : EqualButPaused (s.save .config c) (s'.save .config c') := by
  refine ⟨⟨c, c', s.config_save c, s'.config_save c', heq⟩, fun b hb => ?_⟩
  have hne : Key.config.bytes ≠ b := Ne.symm hb
  rw [Store.save, Store.save, Std.ExtTreeMap.getElem?_insert, Std.ExtTreeMap.getElem?_insert,
    if_neg (by simpa using hne), if_neg (by simpa using hne)]
  exact hothers b hb

/-- Every slot but that of the settings is shared. -/
theorem shares [Codec α] (h : slot.key ≠ .config) : Shares EqualButPaused slot where
  load?_eq _ _ hs := hs.others.load?_eq (Key.bytes_injective.ne h)
  save s s' a hs := by
    obtain ⟨c, c', hc, hc', heq⟩ := hs.config
    refine ⟨⟨c, c', ?_, ?_, heq⟩, hs.others.save slot a⟩
    · rw [config_save_of_ne s h, hc]
    · rw [config_save_of_ne s' h, hc']
  remove s s' hs := by
    obtain ⟨c, c', hc, hc', heq⟩ := hs.config
    refine ⟨⟨c, c', ?_, ?_, heq⟩, hs.others.remove slot⟩
    · rw [config_remove_of_ne s h, hc]
    · rw [config_remove_of_ne s' h, hc']

theorem shares_pool (token : String) : Shares EqualButPaused (.pool token) :=
  shares (by simp)

theorem shares_nonce (n : UInt64) : Shares EqualButPaused (.nonce n) :=
  shares (by simp)

theorem shares_pendingOwner : Shares EqualButPaused .pendingOwner :=
  shares (by simp)

end Store.EqualButPaused

namespace Handler

/-- The settings that are read are equal but for the pause. -/
theorem couples_config_of_equalButPaused :
    Couples Store.EqualButPaused Config.EqualButPaused (ask Store.config) (ask Store.config) := by
  intro s s' hs
  obtain ⟨c, c', hc, hc', heq⟩ := hs.config
  rw [run_ask, run_ask, hc, hc']
  exact ⟨.ok heq, hs⟩

/-- Settings that are equal but for the pause may be written. -/
theorem couples_save_config {c c' : Config} (heq : c.EqualButPaused c') :
    Couples Store.EqualButPaused Eq (save .config c) (save .config c') := by
  intro s s' hs
  exact ⟨.ok rfl, .save_config hs.others heq⟩

end Handler

open Handler (couples_config_of_equalButPaused couples_save_config)

/-! ### Administration -/

namespace Administration

variable {sender : String}

theorem blindTo_setStablePercent (percent : UInt64) :
    (setStablePercent sender percent).BlindTo Store.EqualButPaused := by
  refine (Release.couples_asOwner couples_config_of_equalButPaused).bind fun c c' hc => ?_
  obtain ⟨paused, rfl⟩ := hc
  refine (BlindTo.accept (Commission.checkStablePercent percent)).bind_couples fun _ => ?_
  have hrevised : Config.EqualButPaused { c with stablePercent := percent }
      { c with stablePercent := percent, paused } := ⟨paused, rfl⟩
  refine (couples_save_config hrevised).bind fun _ _ _ => ?_
  exact BlindTo.pure _

theorem blindTo_proposeOwner (newOwner : String) :
    (proposeOwner sender newOwner).BlindTo Store.EqualButPaused := by
  refine (Release.couples_asOwner couples_config_of_equalButPaused).bind fun _ _ _ => ?_
  refine (BlindTo.host (Address.check newOwner)).bind fun _ => ?_
  exact (BlindTo.save Store.EqualButPaused.shares_pendingOwner newOwner).bind fun _ => .pure _

theorem blindTo_acceptOwnership :
    (acceptOwnership sender).BlindTo Store.EqualButPaused := by
  have hpending := Store.EqualButPaused.shares_pendingOwner
  refine (BlindTo.load? hpending).bind fun pending => ?_
  cases pending with
  | none => exact .reject _
  | some newOwner =>
    refine (BlindTo.require (sender = newOwner) _).bind fun _ => ?_
    refine couples_config_of_equalButPaused.bind fun c c' hc => ?_
    obtain ⟨paused, rfl⟩ := hc
    have hrevised : Config.EqualButPaused { c with owner := newOwner }
        { c with owner := newOwner, paused } := ⟨paused, rfl⟩
    refine (couples_save_config hrevised).bind fun _ _ _ => ?_
    exact (BlindTo.remove hpending).bind fun _ => .pure _

theorem blindTo_cancelProposal :
    (cancelProposal sender).BlindTo Store.EqualButPaused := by
  have hpending := Store.EqualButPaused.shares_pendingOwner
  refine (Release.couples_asOwner couples_config_of_equalButPaused).bind fun _ _ _ => ?_
  refine (BlindTo.load? hpending).bind fun pending => ?_
  cases pending with
  | none => exact .reject _
  | some _ => exact (BlindTo.remove hpending).bind fun _ => .pure _

end Administration

theorem Migration.blindTo_handle (m : Migration) : m.handle.BlindTo Store.EqualButPaused :=
  (BlindTo.save (Store.EqualButPaused.shares (by simp)) Version.current).bind fun _ => .pure _

/-! ### Commands and calls -/

variable {recover : Recovery} {context : Context} {sender : String}

/-- The commands that work on a paused bridge as on a running one. -/
def Command.Unpausable : Command → Prop
  | .bridgeOut _ | .withdrawCommission .. | .setStableCommissionPercent _ => True
  | .proposeOwner _ | .acceptOwnership | .cancelOwnershipProposal => True
  | .bridgeIn _ | .receive _ | .transferOut _ | .pause | .unpause => False

/-- The owner's commands do not see whether the bridge is paused. -/
theorem Command.blindTo_handle_of_unpausable {c : Command} (hc : c.Unpausable) :
    (c.handle recover context sender).BlindTo Store.EqualButPaused := by
  have hconfig := couples_config_of_equalButPaused
  cases c with
  | bridgeOut q => exact Release.blindTo_settle hconfig (Store.EqualButPaused.shares_pool q.token)
  | withdrawCommission token amount =>
    exact Release.blindTo_withdrawCommission hconfig (Store.EqualButPaused.shares_pool token)
  | setStableCommissionPercent percent => exact Administration.blindTo_setStablePercent percent
  | proposeOwner newOwner => exact Administration.blindTo_proposeOwner newOwner
  | acceptOwnership => exact Administration.blindTo_acceptOwnership
  | cancelOwnershipProposal => exact Administration.blindTo_cancelProposal
  | _ => exact hc.elim

/-- The calls that work on a paused bridge as on a running one: commands that do, messages that
cannot be read, and migrations. -/
def Call.Unpausable : Call → Prop
  | .execute _ _ message => ∀ c : Command, Schema.command.read message = .ok c → c.Unpausable
  | .migrate .. => True
  | .instantiate .. => False

theorem Call.unpausable_of_read {message : String} {c : Command}
    (hread : Schema.command.read message = .ok c) (hc : c.Unpausable) :
    (Call.execute context sender message).Unpausable := by
  intro c' hc'
  obtain rfl : c' = c := Except.ok.inj (hc'.symm.trans hread)
  exact hc

theorem Call.blindTo_handle_of_unpausable {call : Call} (hcall : call.Unpausable) :
    (call.handle recover).BlindTo Store.EqualButPaused := by
  cases call with
  | execute context sender message =>
    refine (Couples.host (Schema.command.read message)).bind fun c c' ⟨hc, heq⟩ => ?_
    rw [← heq]
    exact Command.blindTo_handle_of_unpausable (hcall c hc)
  | migrate context message => exact (BlindTo.host _).bind fun m => m.blindTo_handle
  | instantiate => exact hcall.elim

/-! ### Questions -/

namespace Question

variable {source : BalanceSource} {s s' : Store}

/-- **All questions but that for the settings** are answered in the same way. -/
theorem answer_eq_of_equalButPaused {question : Question} (hq : question ≠ .config)
    (hs : s.EqualButPaused s') : question.answer source context s' =
      question.answer source context s := by
  obtain ⟨c, c', hc, hc', paused, rfl⟩ := hs.config
  have hpool (token : String) : s'.pool token = s.pool token :=
    (Store.EqualButPaused.shares_pool token).pool_eq hs
  cases question with
  | config => exact absurd rfl hq
  | totalCommission amount fixed =>
    rw [answer, answer, commissionAnswer, commissionAnswer, hc, hc']
    rfl
  | stableCommissionPercent =>
    rw [answer, answer, hc, hc']
    rfl
  | commissionPool token => rw [answer, answer, hpool]
  | pool token => rw [answer, answer, poolAnswer, poolAnswer, hpool]
  | nonceUsed n => rw [answer, answer, (Store.EqualButPaused.shares_nonce n).isUsed_eq hs]
  | pendingOwner =>
    rw [answer, answer, Store.EqualButPaused.shares_pendingOwner.load?_eq s s' hs]
  | chainId | bridgeInDigest | transferOutDigest => rfl

/-- A message that is not the question for the settings is answered in the same way. -/
theorem answerText_eq_of_equalButPaused {message : String}
    (hmessage : ∀ q : Question, Schema.question.read message = .ok q → q ≠ .config)
    (hs : s.EqualButPaused s') :
    answerText source context s' message = answerText source context s message := by
  rw [answerText, answerText]
  cases hread : (Schema.question.read message : Except HostError Question) with
  | error cause => rfl
  | ok question =>
    have hanswer : question.answer source context s' = question.answer source context s :=
      answer_eq_of_equalButPaused (hmessage question hread) hs
    exact congrArg (· >>= fun a : Answer => pure a.text) hanswer

end Question

/-! ### Interactions -/

/-- What is done with a bridge from outside: a call, or a question with what other contracts
reply. -/
inductive Interaction where
  | call (call : Call)
  | question (source : BalanceSource) (context : Context) (message : String)

/-- How an interaction ends: with the outcome of a call, or with the answer to a question. -/
inductive Reply where
  | outcome (outcome : Outcome)
  | answer (answer : Except (Failure HostError) String)

namespace Interaction

/-- The reply to an interaction, and the store it leaves: a question leaves the store as it is. -/
def perform (recover : Recovery) : Interaction → Store → Reply × Store
  | .call c, s => (.outcome (c.perform recover s).1, (c.perform recover s).2)
  | .question source context message, s =>
    (.answer (Question.answerText source context s message), s)

/-- The replies to a sequence of interactions, each with the store it leaves. -/
def trace (recover : Recovery) : List Interaction → Store → List (Reply × Store)
  | [], _ => []
  | i :: more, s =>
    let reply := i.perform recover s
    reply :: trace recover more reply.2

/-- The interactions that go on with a paused bridge as with a running one. -/
def Unpausable : Interaction → Prop
  | .call c => c.Unpausable
  | .question _ _ message =>
    ∀ q : Question, Schema.question.read message = .ok q → q ≠ .config

/-- Two steps of a trace have the same reply, and leave stores that are equal but for the pause. -/
def Alike (step step' : Reply × Store) : Prop :=
  step'.1 = step.1 ∧ step.2.EqualButPaused step'.2

variable {s s' : Store}

/-- One interaction. -/
theorem alike_perform {i : Interaction} (hi : i.Unpausable) (hs : s.EqualButPaused s') :
    Alike (i.perform recover s) (i.perform recover s') := by
  cases i with
  | call c =>
    have hblind : (c.handle recover).BlindTo Store.EqualButPaused :=
      Call.blindTo_handle_of_unpausable hi
    obtain ⟨houtcome, hstores⟩ := Call.perform_of_blindTo hblind hs
    exact ⟨congrArg Reply.outcome houtcome, hstores⟩
  | question source context message =>
    exact ⟨congrArg Reply.answer (Question.answerText_eq_of_equalButPaused hi hs), hs⟩

/-- **Pausing leaves the owner's work alone.** From two stores that are equal but for the bridge
being paused, every sequence of releases and withdrawals by the owner, changes of the percentage,
steps of a change of owners, migrations, and questions other than that for the settings ends step by
step in the same way, and behind each step the stores are equal but for the bridge being paused. -/
theorem unaffected_by_pause (recover : Recovery) {interactions : List Interaction}
    (hall : ∀ i ∈ interactions, i.Unpausable) (hs : s.EqualButPaused s') :
    List.Forall₂ Alike (trace recover interactions s) (trace recover interactions s') := by
  induction interactions generalizing s s' with
  | nil => exact .nil
  | cons i more ih =>
    obtain ⟨hi, hmore⟩ := List.forall_mem_cons.mp hall
    have hstep : Alike (i.perform recover s) (i.perform recover s') := alike_perform hi hs
    exact .cons hstep (ih hmore hstep.2)

/-- The owner releases what is not reserved, and the bridge is migrated. The owner does so all the
same while the bridge is paused. -/
theorem unaffected_by_pause_of_settlement :
    let context : Context := ⟨0, "network", "bridge"⟩
    let config : Config := ⟨"owner", List.replicate 20 1, 400, false⟩
    let before : Pool := ⟨⟨10, by decide⟩, ⟨3, by decide⟩⟩
    let settlement : Settlement := ⟨"token", "recipient", ⟨7, by decide⟩, 1, "chain", "address"⟩
    let release := Call.execute context "owner" (writeJson (Command.bridgeOut settlement))
    let interactions : List Interaction := [.call release, .call (.migrate context "")]
    let pools := (∅ : Store).save (.pool "token") before
    let s := pools.save .config config
    let paused := pools.save .config { config with paused := true }
    (∀ i ∈ interactions, i.Unpausable) ∧ s.EqualButPaused paused ∧
      List.Forall₂ Alike (trace Signature.recovery interactions s)
        (trace Signature.recovery interactions paused) ∧
      (release.perform Signature.recovery paused).1 =
        .ok (Release.settlementResponse settlement) := by
  intro context config before settlement release interactions pools s paused
  have hread : Schema.command.read (writeJson (Command.bridgeOut settlement)) =
      .ok (Command.bridgeOut settlement) :=
    Schema.read_writeJson ..
  have hrelease : release.Unpausable := Call.unpausable_of_read hread trivial
  have hall : ∀ i ∈ interactions, i.Unpausable :=
    List.forall_mem_cons.mpr ⟨hrelease, List.forall_mem_singleton.mpr trivial⟩
  have hs : s.EqualButPaused paused := .save_config (fun _ _ => rfl) ⟨true, rfl⟩
  have htrace := unaffected_by_pause Signature.recovery hall hs
  have hsettled : (Release.settle "owner" settlement).run.run s =
      (.ok (Release.settlementResponse settlement), _) :=
    Release.settle_eq_ok.mpr ⟨config, before, ⟨⟨3, by decide⟩, ⟨3, by decide⟩⟩,
      Store.config_save .., rfl, by decide +kernel, by decide +kernel, by decide,
      (Store.pool_save_of_ne _ (by simp) _).trans (Store.pool_save ..),
      PoolAction.release_eq_ok.mpr ⟨rfl, rfl, by decide⟩, rfl, rfl⟩
  have hperform : release.perform Signature.recovery s =
      (.ok (Release.settlementResponse settlement), _) :=
    Call.perform_eq_ok.mpr (Handler.host_bind_eq_ok.mpr ⟨_, hread, hsettled⟩)
  refine ⟨hall, hs, htrace, ?_⟩
  -- the reply of the first step is the same on both sides
  obtain ⟨⟨hreply, -⟩, -⟩ := List.forall₂_cons.mp htrace
  have houtcome := Reply.outcome.inj hreply
  rwa [hperform] at houtcome

end Interaction

end TokenCustody
