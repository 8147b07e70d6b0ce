import TokenCustody.Proofs.History

/-!
# How the bridge changes hands

Of all that the store says, `Store.ownership` keeps who owns the bridge and who has been proposed.
Three commands work on it, and each of them is a step of a small machine (`Ownership.Step`): the
owner proposes another, the proposed one accepts, the owner takes the proposal back. A call that is
no instantiation takes the step that its command stands for, or none (`Call.step_turn`).

A run that sets the bridge up once thus goes through a `Succession` of steps that starts with the
founder. In a succession each acceptance takes up the proposal right in front of it, made by the
owner of that time (`Succession.orderly`), and a proposal is open only if it was the last step and
its maker still owns the bridge (`Succession.getLast?_of_proposed`). Said of runs, this is
`Call.ownership_handed_over`.
-/

namespace TokenCustody

/-! ### Steps of ownership -/

/-- Who owns the bridge, and who has been proposed as owner. -/
structure Ownership where
  owner : String
  proposed : Option String
  deriving DecidableEq

/-- What a sender has done about the ownership of the bridge. -/
inductive OwnershipStep where
  /-- The sender has proposed another owner. -/
  | proposed (sender newOwner : String)
  /-- The sender has accepted the bridge. -/
  | accepted (sender : String)
  /-- The sender has taken a proposal back. -/
  | cancelled (sender : String)
  deriving DecidableEq

/-- How ownership changes with a step, or without one. -/
inductive Ownership.Step : Option OwnershipStep → Ownership → Ownership → Prop where
  | none (o : Ownership) : Step none o o
  | proposed (o : Ownership) (newOwner : String) :
    Step (some (.proposed o.owner newOwner)) o { o with proposed := some newOwner }
  | accepted (owner newOwner : String) :
    Step (some (.accepted newOwner)) ⟨owner, some newOwner⟩ ⟨newOwner, none⟩
  | cancelled (owner newOwner : String) :
    Step (some (.cancelled owner)) ⟨owner, some newOwner⟩ ⟨owner, none⟩

/-- The owner changes only by acceptance, to the one who accepts and has been proposed. -/
theorem Ownership.Step.accepted_of_owner_ne {step? : Option OwnershipStep} {o o' : Ownership}
    (h : Step step? o o') (hne : o'.owner ≠ o.owner) :
    step? = some (.accepted o'.owner) ∧ o.proposed = some o'.owner := by
  cases h with
  | none => exact absurd rfl hne
  | proposed newOwner => exact absurd rfl hne
  | accepted owner newOwner => exact ⟨rfl, rfl⟩
  | cancelled owner newOwner => exact absurd rfl hne

/-! ### Successions -/

/-- The steps that lead from a founder, with nobody proposed, to an ownership. -/
inductive Succession (founder : String) : List OwnershipStep → Ownership → Prop where
  | founded : Succession founder [] ⟨founder, none⟩
  | snoc {steps : List OwnershipStep} {step : OwnershipStep} {o o' : Ownership}
    (h : Succession founder steps o) (hstep : Ownership.Step (some step) o o') :
    Succession founder (steps ++ [step]) o'

/-- The last one to accept the bridge, or the founder if nobody has. -/
def lastOwner (founder : String) (steps : List OwnershipStep) : String :=
  steps.foldl (fun owner step => match step with
    | .accepted sender => sender
    | .proposed .. | .cancelled _ => owner) founder

theorem lastOwner_concat (founder : String) (steps : List OwnershipStep) (step : OwnershipStep) :
    lastOwner founder (steps ++ [step]) = match step with
      | .accepted sender => sender
      | .proposed .. | .cancelled _ => lastOwner founder steps :=
  List.foldl_append

/-- The steps of ownership follow each other properly. -/
structure Orderly (founder : String) (steps : List OwnershipStep) : Prop where
  /-- Every proposal is the owner's. -/
  proposed : ∀ front sender newOwner behind,
    steps = front ++ .proposed sender newOwner :: behind → sender = lastOwner founder front
  /-- Every acceptance takes up the proposal right in front of it, which is the owner's. -/
  accepted : ∀ front sender behind, steps = front ++ .accepted sender :: behind →
    ∃ start, front = start ++ [.proposed (lastOwner founder front) sender]
  /-- Every cancellation is the owner's, of the proposal right in front of it. -/
  cancelled : ∀ front sender behind, steps = front ++ .cancelled sender :: behind →
    sender = lastOwner founder front ∧
      ∃ start newOwner, front = start ++ [.proposed sender newOwner]

namespace Succession

variable {founder : String} {steps front behind : List OwnershipStep} {step : OwnershipStep}
variable {o o' : Ownership}

theorem append_toList {step? : Option OwnershipStep} (h : Succession founder steps o)
    (hstep : Ownership.Step step? o o') : Succession founder (steps ++ step?.toList) o' := by
  cases step? with
  | none =>
    cases hstep
    rw [Option.toList_none, List.append_nil]
    exact h
  | some step => exact h.snoc hstep

theorem owner_eq (h : Succession founder steps o) : o.owner = lastOwner founder steps := by
  induction h with
  | founded => rfl
  | snoc h hstep ih =>
    rw [lastOwner_concat, ← ih]
    cases hstep <;> rfl

/-- **An open proposal was the last step**, and the one who made it owns the bridge. -/
theorem getLast?_of_proposed {newOwner : String} (h : Succession founder steps o)
    (ho : o.proposed = some newOwner) :
    steps.getLast? = some (.proposed o.owner newOwner) := by
  cases h with
  | founded => cases ho
  | snoc h hstep =>
    rw [List.getLast?_concat]
    cases hstep with
    | proposed newOwner' => rw [Option.some.inj ho]
    | accepted => cases ho
    | cancelled => cases ho

/-- Behind an acceptance or a cancellation, nobody is proposed. -/
theorem proposed_eq_none (h : Succession founder steps o) {sender : String}
    (hlast : steps.getLast? = some (.accepted sender) ∨
      steps.getLast? = some (.cancelled sender)) : o.proposed = none := by
  cases hp : o.proposed with
  | none => rfl
  | some newOwner =>
    rw [h.getLast?_of_proposed hp] at hlast
    rcases hlast with hlast | hlast <;> cases hlast

/-- What stands in front of a step is a succession, and the step is taken from where it leads. -/
theorem exists_step (h : Succession founder steps o) (hsteps : steps = front ++ step :: behind) :
    ∃ o₁ o₂, Succession founder front o₁ ∧ Ownership.Step (some step) o₁ o₂ := by
  induction h generalizing behind with
  | founded => simp at hsteps
  | snoc h hstep ih =>
    -- the step is the last one, or stands further in front
    rcases List.eq_nil_or_concat behind with rfl | ⟨behind, last, rfl⟩
    · obtain ⟨rfl, hlast⟩ := List.append_inj' hsteps rfl
      obtain rfl := List.singleton_inj.mp hlast
      exact ⟨_, _, h, hstep⟩
    · rw [List.concat_eq_append, ← List.cons_append, ← List.append_assoc] at hsteps
      exact ih (List.append_inj' hsteps rfl).1

/-- **The steps of a succession follow each other properly.** -/
theorem orderly (h : Succession founder steps o) : Orderly founder steps where
  proposed := by
    intro front sender newOwner behind hsteps
    obtain ⟨o₁, o₂, hfront, hstep⟩ := h.exists_step hsteps
    cases hstep
    exact hfront.owner_eq
  accepted := by
    intro front sender behind hsteps
    obtain ⟨o₁, o₂, hfront, hstep⟩ := h.exists_step hsteps
    cases hstep with
    | accepted owner =>
      rw [← hfront.owner_eq]
      exact List.getLast?_eq_some_iff.mp (hfront.getLast?_of_proposed rfl)
  cancelled := by
    intro front sender behind hsteps
    obtain ⟨o₁, o₂, hfront, hstep⟩ := h.exists_step hsteps
    cases hstep with
    | cancelled _ newOwner =>
      obtain ⟨start, hstart⟩ := List.getLast?_eq_some_iff.mp (hfront.getLast?_of_proposed rfl)
      exact ⟨hfront.owner_eq, start, newOwner, hstart⟩

end Succession

/-! ### What the store says -/

namespace Store

variable {s : Store} {o : Ownership}

/-- Who owns the bridge and who has been proposed, as it is stored. -/
def ownership (s : Store) : Except HostError Ownership := do
  let config ← s.config
  let proposed ← s.load? .pendingOwner
  return ⟨config.owner, proposed⟩

theorem ownership_eq_ok : s.ownership = .ok o ↔
    ∃ config, s.config = .ok config ∧ config.owner = o.owner ∧
      s.load? .pendingOwner = .ok o.proposed := by
  simp only [ownership, bind_eq_ok]
  constructor
  · rintro ⟨config, hconfig, proposed, hproposed, ho⟩
    cases ho
    exact ⟨config, hconfig, rfl, hproposed⟩
  · rintro ⟨config, hconfig, howner, hproposed⟩
    exact ⟨config, hconfig, o.proposed, hproposed, by rw [howner]; rfl⟩

theorem ownership_save_config (h : s.ownership = .ok o) (c : Config) :
    (s.save .config c).ownership = .ok { o with owner := c.owner } := by
  have hne : Slot.config.key ≠ Slot.pendingOwner.key := by simp
  obtain ⟨_, -, -, hproposed⟩ := ownership_eq_ok.mp h
  rw [← load?_save_of_key_ne s hne c] at hproposed
  exact ownership_eq_ok.mpr ⟨c, config_save s c, rfl, hproposed⟩

theorem ownership_save_pendingOwner (h : s.ownership = .ok o) (newOwner : String) :
    (s.save .pendingOwner newOwner).ownership = .ok { o with proposed := some newOwner } := by
  have hne : Slot.pendingOwner.key ≠ Key.config := by simp
  obtain ⟨config, hconfig, howner, -⟩ := ownership_eq_ok.mp h
  rw [← config_save_of_ne s hne newOwner] at hconfig
  exact ownership_eq_ok.mpr ⟨config, hconfig, howner, load?_save s .pendingOwner newOwner⟩

theorem ownership_remove_pendingOwner (h : s.ownership = .ok o) :
    (s.remove .pendingOwner).ownership = .ok { o with proposed := none } := by
  have hne : Slot.pendingOwner.key ≠ Key.config := by simp
  obtain ⟨config, hconfig, howner, -⟩ := ownership_eq_ok.mp h
  rw [← config_remove_of_ne s hne] at hconfig
  exact ownership_eq_ok.mpr ⟨config, hconfig, howner, load?_remove s .pendingOwner⟩

/-- Entries that are neither settings nor a proposal do not matter. -/
theorem ownership_save_of_ne {α : Type} [Codec α] {slot : Slot α} (hconfig : slot.key ≠ .config)
    (hproposed : slot.key ≠ .pendingOwner) (s : Store) (a : α) :
    (s.save slot a).ownership = s.ownership := by
  rw [ownership, ownership, config_save_of_ne s hconfig, load?_save_of_key_ne s hproposed]

end Store

theorem Posting.ownership_write (p : Posting) (s : Store) (q : Pool) :
    (p.write s q).ownership = s.ownership := by
  rw [Store.ownership, Store.ownership, p.config_write, p.load?_pendingOwner_write]

/-! ### Which step a call takes -/

/-- The step that a command stands for. -/
def Command.ownershipStep? (sender : String) : Command → Option OwnershipStep
  | .proposeOwner newOwner => some (.proposed sender newOwner)
  | .acceptOwnership => some (.accepted sender)
  | .cancelOwnershipProposal => some (.cancelled sender)
  | .bridgeIn _ | .receive _ | .transferOut _ | .bridgeOut _ | .withdrawCommission .. => none
  | .setStableCommissionPercent _ | .pause | .unpause => none

namespace Call

/-- The step that a call stands for: that of its command, if its message is one. -/
def ownershipStep? : Call → Option OwnershipStep
  | .execute _ sender message =>
    (Schema.command.read message).toOption.bind fun c : Command => c.ownershipStep? sender
  | .instantiate .. | .migrate .. => none

/-- The call sets the bridge up. -/
def IsInstantiation : Call → Prop
  | .instantiate .. => True
  | .execute .. | .migrate .. => False

instance : DecidablePred IsInstantiation
  | .instantiate .. => .isTrue trivial
  | .execute .. | .migrate .. => .isFalse id

end Call

namespace Turn

/-- The step that the call has taken, if it has succeeded and stands for one. -/
def ownershipStep? (turn : Turn) : Option OwnershipStep :=
  match turn.outcome with
  | .ok _ => turn.call.ownershipStep?
  | .error _ => none

/-- The steps that the calls of a history have taken, in order. -/
def ownershipSteps (turns : List Turn) : List OwnershipStep :=
  turns.filterMap ownershipStep?

theorem ownershipSteps_cons (turn : Turn) (turns : List Turn) :
    ownershipSteps (turn :: turns) = turn.ownershipStep?.toList ++ ownershipSteps turns := by
  rw [ownershipSteps, List.filterMap_cons]
  cases turn.ownershipStep? <;> rfl

theorem ownershipSteps_append (turns more : List Turn) :
    ownershipSteps (turns ++ more) = ownershipSteps turns ++ ownershipSteps more :=
  List.filterMap_append

/-- The store that the call has left. -/
def after (recover : Recovery) (turn : Turn) : Store :=
  (turn.call.perform recover turn.before).2

end Turn

variable {recover : Recovery} {context : Context} {sender : String} {s t : Store} {r : Response}
variable {o : Ownership}

/-- A posting leaves the ownership as it is. -/
theorem Posting.ownership_of_eq_ok {p : Posting}
    (h : (p.handle recover context sender).run.run s = (.ok r, t)) :
    t.ownership = s.ownership := by
  obtain ⟨config, before, after, hb⟩ := exists_booked h
  rw [hb.store_eq, p.ownership_write]

/-- **A command that succeeds takes the step that it stands for.** -/
theorem Command.step_of_eq_ok {c : Command}
    (h : (c.handle recover context sender).run.run s = (.ok r, t)) (ho : s.ownership = .ok o) :
    ∃ o', t.ownership = .ok o' ∧ Ownership.Step (c.ownershipStep? sender) o o' := by
  -- the settings that a handler has read are those that the ownership was read from
  have howner {config : Config} (hconfig : s.config = .ok config) : config.owner = o.owner := by
    obtain ⟨config', hconfig', howner, -⟩ := Store.ownership_eq_ok.mp ho
    rw [hconfig] at hconfig'
    rwa [Except.ok.inj hconfig']
  have hpending {proposed : Option String} (hload : s.load? .pendingOwner = .ok proposed) :
      o.proposed = proposed := by
    obtain ⟨-, -, -, hload'⟩ := Store.ownership_eq_ok.mp ho
    exact Except.ok.inj (hload'.symm.trans hload)
  have hposting {p : Posting} (hp : (p.handle recover context sender).run.run s = (.ok r, t)) :
      ∃ o', t.ownership = .ok o' ∧ Ownership.Step none o o' :=
    ⟨o, (Posting.ownership_of_eq_ok hp).trans ho, .none o⟩
  cases c with
  | bridgeIn request => exact hposting (p := .deposit (.ofRequest sender request)) h
  | receive notice =>
    obtain ⟨d, -, hbook⟩ := Handler.host_bind_eq_ok.mp h
    exact hposting (p := .deposit d) hbook
  | transferOut request => exact hposting (p := .release request) h
  | bridgeOut settlement => exact hposting (p := .settlement settlement) h
  | withdrawCommission token amount => exact hposting (p := .withdrawal token amount) h
  | setStableCommissionPercent percent =>
    obtain ⟨config, hconfig, -, -, -, rfl⟩ := Administration.setStablePercent_eq_ok.mp h
    refine ⟨o, ?_, .none o⟩
    rw [Store.ownership_save_config ho, howner hconfig]
  | pause | unpause =>
    obtain ⟨config, hconfig, -, -, -, rfl⟩ := Administration.setPaused_eq_ok.mp h
    refine ⟨o, ?_, .none o⟩
    rw [Store.ownership_save_config ho, howner hconfig]
  | proposeOwner newOwner =>
    obtain ⟨config, hconfig, hsender, -, -, rfl⟩ := Administration.proposeOwner_eq_ok.mp h
    refine ⟨_, Store.ownership_save_pendingOwner ho newOwner, ?_⟩
    rw [hsender, howner hconfig]
    exact .proposed o newOwner
  | acceptOwnership =>
    obtain ⟨config, hload, hconfig, -, rfl⟩ := Administration.acceptOwnership_eq_ok.mp h
    refine ⟨_, Store.ownership_remove_pendingOwner (Store.ownership_save_config ho _), ?_⟩
    obtain ⟨owner, proposed⟩ := o
    obtain rfl : proposed = some sender := hpending hload
    exact .accepted owner sender
  | cancelOwnershipProposal =>
    obtain ⟨config, newOwner, hconfig, hsender, hload, -, rfl⟩ :=
      Administration.cancelProposal_eq_ok.mp h
    refine ⟨_, Store.ownership_remove_pendingOwner ho, ?_⟩
    obtain ⟨owner, proposed⟩ := o
    obtain rfl : proposed = some newOwner := hpending hload
    rw [hsender, howner hconfig]
    exact .cancelled owner newOwner

namespace Call

/-- **A call that is no instantiation takes the step that it stands for**, or none. -/
theorem step_turn (recover : Recovery) {call : Call} (hcall : ¬ call.IsInstantiation)
    (ho : s.ownership = .ok o) :
    ∃ o', (call.perform recover s).2.ownership = .ok o' ∧
      Ownership.Step (call.turn recover s).ownershipStep? o o' := by
  rw [Turn.ownershipStep?, turn, perform]
  rcases hrun : (call.handle recover).run.run s with ⟨failure | r, t⟩
  · exact ⟨o, ho, .none o⟩
  cases call with
  | instantiate context sender message => exact absurd trivial hcall
  | execute context sender message =>
    obtain ⟨c, hcommand, hc⟩ := Handler.host_bind_eq_ok.mp hrun
    rw [ownershipStep?, hcommand]
    exact Command.step_of_eq_ok hc ho
  | migrate context message =>
    obtain ⟨m, -, hm⟩ := Handler.host_bind_eq_ok.mp hrun
    obtain ⟨-, rfl⟩ := Migration.handle_eq_ok.mp hm
    refine ⟨o, ?_, .none o⟩
    rw [Store.ownership_save_of_ne (by simp) (by simp), ho]

/-- An instantiation that succeeds on the empty store makes the one that it names the owner, or else
the sender. -/
theorem ownership_of_instantiate {message : String}
    (h : ((Call.instantiate context sender message).perform recover ∅).1.isOk = true) :
    ∃ m : Instantiation, ∃ founder, Schema.instantiation.read message = .ok m ∧
      m.ownerOr sender = .ok founder ∧
      ((Call.instantiate context sender message).perform recover ∅).2.ownership =
        .ok ⟨founder, none⟩ := by
  rw [perform] at h ⊢
  rcases hrun : ((Call.instantiate context sender message).handle recover).run.run ∅ with
    ⟨failure | r, t⟩
  · rw [hrun] at h
    cases h
  obtain ⟨m, hmessage, hm⟩ := Handler.host_bind_eq_ok.mp hrun
  obtain ⟨founder, signer, hfounder, -, -, -, rfl⟩ := Instantiation.handle_eq_ok.mp hm
  refine ⟨m, founder, hmessage, hfounder, ?_⟩
  have hversion : Slot.version.key ≠ Slot.pendingOwner.key := by simp
  have hconfig : Slot.config.key ≠ Slot.pendingOwner.key := by simp
  refine Store.ownership_eq_ok.mpr ⟨_, Store.config_save _ _, rfl, ?_⟩
  rw [Store.load?_save_of_key_ne _ hconfig, Store.load?_save_of_key_ne _ hversion,
    Store.load?_empty]

/-- Without a proposal, nobody can accept. -/
theorem perform_acceptOwnership_of_none (hload : s.load? .pendingOwner = .ok none)
    (context : Context) (sender : String) {message : String}
    (hmessage : Schema.command.read message = .ok Command.acceptOwnership) :
    (Call.execute context sender message).perform recover s =
      (.error (.rejected .noPendingOwner), s) := by
  have hread : (Handler.host (Schema.command.read message)).run.run s =
      (.ok Command.acceptOwnership, s) := Handler.host_eq_ok.mpr ⟨hmessage, rfl⟩
  have hask : (Handler.ask (·.load? .pendingOwner)).run.run s = (.ok none, s) :=
    Handler.ask_eq_ok.mpr ⟨hload, rfl⟩
  have hrun : (Administration.acceptOwnership sender).run.run s =
      (.error (.rejected .noPendingOwner), s) := by
    rw [Administration.acceptOwnership, Handler.run_bind_of_ok hask]
    exact Handler.run_reject _ s
  rw [perform, handle, Handler.run_bind_of_ok hread, Command.handle, hrun]

/-! ### Runs -/

variable {calls later : List Call} {founder : String} {steps : List OwnershipStep}

/-- A call that fails leaves the store as it was. -/
theorem perform_of_fails {call : Call} (h : (call.perform recover s).1.isOk = false) :
    (call.perform recover s).2 = s := by
  rw [perform] at h ⊢
  rcases hrun : (call.handle recover).run.run s with ⟨failure | r, t⟩
  · rfl
  · rw [hrun] at h
    cases h

/-- Calls that fail, one and all, leave the store as it was. -/
theorem run_of_fails (h : ∀ turn ∈ history recover calls s, turn.outcome.isOk = false) :
    run recover calls s = s := by
  induction calls generalizing s with
  | nil => rfl
  | cons call calls ih =>
    obtain ⟨hcall, hrest⟩ := List.forall_mem_cons.mp h
    have hstore : (call.perform recover s).2 = s := perform_of_fails hcall
    rw [hstore] at hrest
    rw [run_cons, hstore]
    exact ih hrest

/-- Calls that fail take no steps. -/
theorem ownershipSteps_of_fails {turns : List Turn}
    (h : ∀ turn ∈ turns, turn.outcome.isOk = false) : Turn.ownershipSteps turns = [] := by
  refine List.filterMap_eq_nil_iff.mpr fun turn hturn => ?_
  have hfails := h turn hturn
  rw [Turn.ownershipStep?]
  cases houtcome : turn.outcome with
  | error failure => rfl
  | ok r =>
    rw [houtcome] at hfails
    cases hfails

section Failing

variable (h : ∀ turn ∈ history recover calls s, turn.outcome.isOk = false) (more : List Call)

include h

/-- Behind calls that fail, a run goes on as if they had not been. -/
theorem run_append_of_fails : run recover (calls ++ more) s = run recover more s := by
  rw [run_append, run_of_fails h]

theorem history_append_of_fails :
    history recover (calls ++ more) s = history recover calls s ++ history recover more s := by
  rw [history_append, run_of_fails h]

theorem ownershipSteps_append_of_fails :
    Turn.ownershipSteps (history recover (calls ++ more) s) =
      Turn.ownershipSteps (history recover more s) := by
  rw [history_append_of_fails h, Turn.ownershipSteps_append, ownershipSteps_of_fails h,
    List.nil_append]

end Failing

/-- A turn that fails leaves the store that it has found. -/
theorem after_of_fails {turn : Turn} (hturn : turn ∈ history recover calls s)
    (hfails : turn.outcome.isOk = false) : turn.after recover = turn.before := by
  obtain ⟨call, -, s', rfl⟩ := exists_of_mem_history hturn
  exact perform_of_fails hfails

/-- To set the bridge up is no step. -/
theorem ownershipStep?_turn {call : Call} (hcall : call.IsInstantiation) :
    (call.turn recover s).ownershipStep? = none := by
  cases call with
  | instantiate context sender message =>
    rw [Turn.ownershipStep?]
    split <;> rfl
  | execute | migrate => exact absurd hcall id

/-- **A run without instantiations continues a succession** by the steps that its calls take. -/
theorem succession_run (recover : Recovery) (hlater : ∀ call ∈ later, ¬ call.IsInstantiation)
    (ho : s.ownership = .ok o) (h : Succession founder steps o) :
    ∃ o', (run recover later s).ownership = .ok o' ∧
      Succession founder (steps ++ Turn.ownershipSteps (history recover later s)) o' := by
  induction later generalizing s steps o with
  | nil =>
    refine ⟨o, ho, ?_⟩
    rwa [history, Turn.ownershipSteps, List.filterMap_nil, List.append_nil]
  | cons call later ih =>
    obtain ⟨hcall, hrest⟩ := List.forall_mem_cons.mp hlater
    obtain ⟨o₁, ho₁, hstep⟩ := step_turn recover hcall ho
    obtain ⟨o', ho', h'⟩ := ih hrest ho₁ (h.append_toList hstep)
    refine ⟨o', ho', ?_⟩
    rwa [history, Turn.ownershipSteps_cons, ← List.append_assoc]

/-- In a run without instantiations, only an acceptance by the one who has been proposed changes the
owner. -/
theorem accepted_of_mem_history {turn : Turn} {config config' : Config}
    (hlater : ∀ call ∈ later, ¬ call.IsInstantiation) (ho : s.ownership = .ok o)
    (hturn : turn ∈ history recover later s) (hconfig : turn.before.config = .ok config)
    (hconfig' : (turn.after recover).config = .ok config') (hne : config'.owner ≠ config.owner) :
    turn.ownershipStep? = some (.accepted config'.owner) ∧
      turn.before.load? .pendingOwner = .ok (some config'.owner) := by
  induction later generalizing s o with
  | nil => cases hturn
  | cons call later ih =>
    obtain ⟨hcall, hrest⟩ := List.forall_mem_cons.mp hlater
    obtain ⟨o', ho', hstep⟩ := step_turn recover hcall ho
    rcases List.mem_cons.mp hturn with rfl | hturn
    · obtain ⟨c, hc, howner, hpending⟩ := Store.ownership_eq_ok.mp ho
      obtain ⟨c', hc', howner', -⟩ := Store.ownership_eq_ok.mp ho'
      obtain rfl : c = config := Except.ok.inj (hc.symm.trans hconfig)
      obtain rfl : c' = config' := Except.ok.inj (hc'.symm.trans hconfig')
      rw [howner, howner'] at hne
      obtain ⟨haccepted, hproposed⟩ := hstep.accepted_of_owner_ne hne
      rw [howner']
      exact ⟨haccepted, hproposed ▸ hpending⟩
    · exact ih hrest ho' hturn

end Call

/-- The ownership of a bridge has been handed over properly, from a founder to the owner in a store,
by the calls of a history. -/
structure HandedOver (recover : Recovery) (founder : String) (turns : List Turn) (s : Store) :
    Prop where
  /-- The owner is the last one to have accepted, or the founder. -/
  owner_eq : ∃ config, s.config = .ok config ∧
    config.owner = lastOwner founder (Turn.ownershipSteps turns)
  /-- Proposals are the owner's, and each acceptance takes up the proposal right in front of it. -/
  orderly : Orderly founder (Turn.ownershipSteps turns)
  /-- No call has changed the owner but an acceptance by the new owner, who had been proposed. -/
  accepted_of_change : ∀ turn ∈ turns, ∀ config config', turn.before.config = .ok config →
    (turn.after recover).config = .ok config' → config'.owner ≠ config.owner →
      turn.ownershipStep? = some (.accepted config'.owner) ∧
        turn.before.load? .pendingOwner = .ok (some config'.owner)
  /-- Whoever is proposed has been proposed by the last step, and by the one who is the owner. -/
  proposed_of_pending : ∀ newOwner, s.load? .pendingOwner = .ok (some newOwner) →
    (Turn.ownershipSteps turns).getLast? =
      some (.proposed (lastOwner founder (Turn.ownershipSteps turns)) newOwner)
  /-- Behind an acceptance or a cancellation nobody is proposed, and nobody can accept. -/
  noPending_of_last : ∀ who, (Turn.ownershipSteps turns).getLast? = some (.accepted who) ∨
      (Turn.ownershipSteps turns).getLast? = some (.cancelled who) →
    s.load? .pendingOwner = .ok none ∧
      ∀ context sender message, Schema.command.read message = .ok Command.acceptOwnership →
        (Call.execute context sender message).perform recover s =
          (.error (.rejected .noPendingOwner), s)

/-- Where the steps of a history are a succession to the ownership in the store, it has been handed
over properly, if only acceptances have changed the owner. -/
theorem HandedOver.of_succession {founder : String} {turns : List Turn}
    (h : Succession founder (Turn.ownershipSteps turns) o) (ho : s.ownership = .ok o)
    (haccepted : ∀ turn ∈ turns, ∀ config config', turn.before.config = .ok config →
      (turn.after recover).config = .ok config' → config'.owner ≠ config.owner →
        turn.ownershipStep? = some (.accepted config'.owner) ∧
          turn.before.load? .pendingOwner = .ok (some config'.owner)) :
    HandedOver recover founder turns s := by
  obtain ⟨config, hconfig, howner, hpending⟩ := Store.ownership_eq_ok.mp ho
  exact {
    owner_eq := ⟨config, hconfig, howner.trans h.owner_eq⟩
    orderly := h.orderly
    accepted_of_change := haccepted
    proposed_of_pending := by
      intro newOwner hnew
      rw [← h.owner_eq]
      exact h.getLast?_of_proposed (Except.ok.inj (hpending.symm.trans hnew))
    noPending_of_last := by
      intro who hlast
      rw [h.proposed_eq_none hlast] at hpending
      exact ⟨hpending, fun context sender message hmessage =>
        Call.perform_acceptOwnership_of_none hpending context sender hmessage⟩ }

namespace Call

variable {failing later : List Call} {message : String}

/-- **The bridge changes hands by proposal and acceptance only.** In every run from the empty store
whose first call to succeed sets the bridge up, and which does not set it up again, ownership has
been handed over properly from the one whom the instantiation names, or else from its sender. -/
theorem ownership_handed_over
    (hfailing : ∀ turn ∈ history recover failing ∅, turn.outcome.isOk = false)
    (hfounding : ((Call.instantiate context sender message).perform recover ∅).1.isOk = true)
    (hlater : ∀ call ∈ later, ¬ call.IsInstantiation) :
    let calls := failing ++ .instantiate context sender message :: later
    ∃ m : Instantiation, ∃ founder, Schema.instantiation.read message = .ok m ∧
      m.ownerOr sender = .ok founder ∧
      HandedOver recover founder (history recover calls ∅) (run recover calls ∅) := by
  intro calls
  obtain ⟨m, founder, hmessage, hfounder, ho⟩ := ownership_of_instantiate hfounding
  refine ⟨m, founder, hmessage, hfounder, ?_⟩
  let founding : Call := .instantiate context sender message
  have hrun : run recover calls ∅ = run recover later (founding.perform recover ∅).2 := by
    rw [run_append_of_fails hfailing, run_cons]
  have hnone : (founding.turn recover ∅).ownershipStep? = none := ownershipStep?_turn trivial
  have hsteps : Turn.ownershipSteps (history recover calls ∅) =
      Turn.ownershipSteps (history recover later (founding.perform recover ∅).2) := by
    rw [ownershipSteps_append_of_fails hfailing, history, Turn.ownershipSteps_cons, hnone,
      Option.toList_none, List.nil_append]
  have hfounded : Succession founder [] ⟨founder, none⟩ := .founded
  obtain ⟨o, ho', h⟩ := succession_run recover hlater ho hfounded
  rw [List.nil_append, ← hsteps] at h
  rw [← hrun] at ho'
  refine .of_succession h ho' fun turn hturn config config' hconfig hconfig' hne => ?_
  rw [history_append_of_fails hfailing] at hturn
  -- the turn stands among those that fail, sets the bridge up, or comes later
  rcases List.mem_append.mp hturn with hturn | hturn
  · rw [after_of_fails hturn (hfailing turn hturn), hconfig] at hconfig'
    exact absurd (congrArg Config.owner (Except.ok.inj hconfig')).symm hne
  rcases List.mem_cons.mp hturn with rfl | hturn
  · cases Store.config_empty.symm.trans hconfig
  · exact accepted_of_mem_history hlater ho hturn hconfig hconfig' hne

/-- A bridge whose founder has tried to pause it too early, sets it up, and hands it over to a
successor. -/
theorem ownership_handed_over_to_successor :
    let context : Context := ⟨0, "network", "bridge"⟩
    let setup : Instantiation := ⟨none, "0x00000000000000000000000000000000000000aa", none⟩
    let early := Call.execute context "founder" (writeJson Command.pause)
    let founding := Call.instantiate context "founder" (writeJson setup)
    let proposal := Call.execute context "founder" (writeJson (Command.proposeOwner "successor"))
    let acceptance := Call.execute context "successor" (writeJson Command.acceptOwnership)
    let calls := [early] ++ founding :: [proposal, acceptance]
    let recover := Signature.recovery
    (∀ turn ∈ history recover [early] ∅, turn.outcome.isOk = false) ∧
      (founding.perform recover ∅).1.isOk = true ∧
      (∀ call ∈ [proposal, acceptance], ¬ call.IsInstantiation) ∧
      ∃ m : Instantiation, ∃ founder, Schema.instantiation.read (writeJson setup) = .ok m ∧
        m.ownerOr "founder" = .ok founder ∧
        HandedOver recover founder (history recover calls ∅) (run recover calls ∅) := by
  intro context setup early founding proposal acceptance calls recover
  have hfailing : ∀ turn ∈ history recover [early] ∅, turn.outcome.isOk = false := by
    decide +kernel
  have hfounding : (founding.perform recover ∅).1.isOk = true := by decide +kernel
  have hlater : ∀ call ∈ [proposal, acceptance], ¬ call.IsInstantiation := by decide
  exact ⟨hfailing, hfounding, hlater, ownership_handed_over hfailing hfounding hlater⟩

end Call

end TokenCustody
