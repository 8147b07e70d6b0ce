import TokenCustody.Proofs.Posting

/-!
# Histories

The history of a run tells its calls one by one: the store that each call found, and how it ended.
It is the outcomes of `Call.trace` with the stores in front of them (`Call.map_outcome_history`). A
`Turn` of a history has booked a posting if its call has one and did not fail (`Turn.posted?`).

A bridge is set up by a founding call. From the empty store it leaves the settings that it asks for
and blank books (`Call.run_instantiation`), and a deposit behind it is all that is in them
(`Call.run_instantiation_bridgeIn`).
-/

namespace TokenCustody

/-- One call of a run. -/
structure Turn where
  /-- The store that the call found. -/
  before : Store
  call : Call
  outcome : Outcome

namespace Turn

/-- What the call has booked. -/
def posted? (turn : Turn) : Option Posting :=
  match turn.outcome with
  | .ok _ => turn.call.posting?
  | .error _ => none

/-- What the call hands to its surroundings, which is nothing if it fails. -/
def response (turn : Turn) : Response :=
  match turn.outcome with
  | .ok r => r
  | .error _ => ⟨[], [], []⟩

theorem posting?_of_posted {turn : Turn} {p : Posting} (h : turn.posted? = some p) :
    turn.call.posting? = some p := by
  rw [posted?] at h
  split at h
  · exact h
  · cases h

end Turn

namespace Call

variable {recover : Recovery} {s : Store}

/-- A call on a store, with its outcome. -/
def turn (recover : Recovery) (call : Call) (s : Store) : Turn :=
  ⟨s, call, (call.perform recover s).1⟩

/-- The calls of a run one by one. -/
def history (recover : Recovery) : List Call → Store → List Turn
  | [], _ => []
  | call :: calls, s => call.turn recover s :: history recover calls (call.perform recover s).2

/-- The outcomes of a history are those of the trace. -/
theorem map_outcome_history (calls : List Call) :
    (history recover calls s).map Turn.outcome = (trace recover calls s).map Prod.fst := by
  induction calls generalizing s with
  | nil => rfl
  | cons call calls ih => exact congrArg (_ :: ·) ih

@[simp]
theorem run_nil : run recover [] s = s := rfl

@[simp]
theorem run_cons (call : Call) (calls : List Call) :
    run recover (call :: calls) s = run recover calls (call.perform recover s).2 := rfl

theorem history_append (calls more : List Call) (s : Store) :
    history recover (calls ++ more) s =
      history recover calls s ++ history recover more (run recover calls s) := by
  induction calls generalizing s with
  | nil => rfl
  | cons call calls ih => exact congrArg (_ :: ·) (ih _)

theorem run_append (calls more : List Call) (s : Store) :
    run recover (calls ++ more) s = run recover more (run recover calls s) :=
  List.foldl_append

/-- The last call of a run finds the store that the calls in front of it have left. -/
theorem run_concat (calls : List Call) (call : Call) (s : Store) :
    run recover (calls ++ [call]) s = (call.perform recover (run recover calls s)).2 := by
  rw [run_append, run_cons, run_nil]

/-! ### The founding call -/

section Founding

variable {context : Context} {founder owner : String} {m : Instantiation} {signer : EthAddress}
variable (howner : m.ownerOr founder = .ok owner) (hsigner : m.signerIdentity = .ok signer)
variable (hpercent : m.stablePercent.getD Commission.defaultStablePercent ≤ maxStablePercent)

include howner hsigner hpercent

/-- A founding call with an owner, a signer and a percentage in range succeeds on every store. -/
theorem exists_perform_instantiation (recover : Recovery) (context : Context) (s : Store) :
    let stablePercent := m.stablePercent.getD Commission.defaultStablePercent
    ∃ r, (Call.instantiate context founder (writeJson m)).perform recover s =
      (.ok r, (s.save .version Version.current).save .config
        ⟨owner, signer.toList, stablePercent, false⟩) :=
  ⟨_, perform_eq_ok.mpr (Handler.host_bind_eq_ok.mpr ⟨m, Schema.read_writeJson _ m,
    Instantiation.handle_eq_ok.mpr ⟨owner, signer, howner, hsigner, hpercent, rfl, rfl⟩⟩)⟩

/-- **A bridge that has just been set up** has its settings, and nothing in its books. -/
theorem run_instantiation :
    let s := run recover [.instantiate context founder (writeJson m)] ∅
    let stablePercent := m.stablePercent.getD Commission.defaultStablePercent
    s.config = .ok ⟨owner, signer.toList, stablePercent, false⟩ ∧ (∅ : Store).SameBooks s := by
  intro s stablePercent
  obtain ⟨r, hperform⟩ :=
    exists_perform_instantiation howner hsigner hpercent recover context ∅
  have hs : s = ((∅ : Store).save .version Version.current).save .config
      ⟨owner, signer.toList, stablePercent, false⟩ := by
    simp only [s, run_cons, run_nil, hperform, stablePercent]
  rw [hs]
  exact ⟨Store.config_save .., ((Store.SameBooks.refl ∅).save_version _).save_config _⟩

/-- **What a deposit behind the founding call leaves**: the settings as they were, the deposit in
the pool of its token with the commission reserved, no other pool, and no consumed nonce but its
own. -/
theorem run_instantiation_bridgeIn {context' : Context} {user : String} {request : DepositRequest}
    {commission : Amount} :
    let s := run recover [.instantiate context founder (writeJson m),
      .execute context' user (writeJson (Command.bridgeIn request))] ∅
    let stablePercent := m.stablePercent.getD Commission.defaultStablePercent
    let config : Config := ⟨owner, signer.toList, stablePercent, false⟩
    let d := Deposit.ofRequest user request
    d.Admissible context' config →
      config.Signed recover (d.authorization context').signedDigest d.consent.signature →
      Commission.total d.amount d.consent.terms.gasCommission stablePercent = .ok commission →
      s.config = .ok config ∧ s.pool d.token = .ok ⟨d.amount, commission⟩ ∧
        (∀ token, token ≠ d.token → s.pool token = .ok .empty) ∧
        ∀ n, s.isUsed n = .ok (decide (n = d.consent.terms.nonce)) := by
  intro s stablePercent config d hd hsigned hcommission
  let founded := run recover [.instantiate context founder (writeJson m)] ∅
  obtain ⟨hfounded, hbooks⟩ : founded.config = .ok config ∧ (∅ : Store).SameBooks founded :=
    run_instantiation howner hsigner hpercent
  have hbooked := Deposit.run_book_of_empty hfounded hd (hbooks.isUsed_of_empty _) hsigned
    hcommission (hbooks.pool_of_empty d.token)
  have hperform : (Call.execute context' user (writeJson (Command.bridgeIn request))).perform
      recover founded = (.ok _, (Posting.deposit d).write founded ⟨d.amount, commission⟩) :=
    perform_eq_ok.mpr (Handler.host_bind_eq_ok.mpr
      ⟨.bridgeIn request, Schema.read_writeJson _ (Command.bridgeIn request), hbooked⟩)
  have hs : s = (Posting.deposit d).write founded ⟨d.amount, commission⟩ := by
    have hrun : s = (Call.perform recover _ founded).2 := run_concat [_] _ ∅
    rw [hrun, hperform]
  rw [hs, Posting.config_write]
  refine ⟨hfounded, Posting.pool_write .., fun token htoken => ?_, fun n => ?_⟩
  · rw [Posting.pool_write_of_ne (Ne.symm htoken), hbooks.pool_of_empty]
  · by_cases hn : n = d.consent.terms.nonce
    · rw [decide_eq_true hn]
      exact Posting.isUsed_write_of_mem (congrArg some hn.symm) ..
    · rw [decide_eq_false hn, Posting.isUsed_write_of_notMem, hbooks.isUsed_of_empty]
      exact fun hmem => hn (Option.some.inj hmem).symm

end Founding

/-! ### Turns -/

/-- Every turn of a history is one of the calls, on some store. -/
theorem exists_of_mem_history {calls : List Call} {turn : Turn}
    (h : turn ∈ history recover calls s) : ∃ call ∈ calls, ∃ s', turn = call.turn recover s' := by
  induction calls generalizing s with
  | nil => cases h
  | cons call calls ih =>
    rcases List.mem_cons.mp h with rfl | h
    · exact ⟨call, List.mem_cons_self, s, rfl⟩
    · obtain ⟨call', hcall', hturn⟩ := ih h
      exact ⟨call', List.mem_cons_of_mem _ hcall', hturn⟩

/-- **What a turn does to the books.** It books nothing, leaves them alone, and orders and announces
nothing; or it books a posting. -/
theorem turn_cases (recover : Recovery) (call : Call) (s : Store) :
    ((call.turn recover s).posted? = none ∧ s.SameBooks (call.perform recover s).2 ∧
        (call.turn recover s).response.calls = [] ∧ (call.turn recover s).response.events = []) ∨
      ∃ p context config before after, (call.turn recover s).posted? = some p ∧
        p.Booked context config s before after (call.turn recover s).response
          (call.perform recover s).2 := by
  rw [Turn.posted?, Turn.response, turn]
  rcases perform_cases recover call s with ⟨failure, h⟩ | ⟨r, t, h, hnone, hbooks, hcalls⟩ |
    ⟨p, context, config, before, after, r, t, h, hp, hbooked⟩
  · rw [h]
    exact .inl ⟨rfl, .refl s, rfl, rfl⟩
  · rw [h]
    exact .inl ⟨hnone, hbooks, hcalls⟩
  · rw [h]
    exact .inr ⟨p, context, config, before, after, hp, hbooked⟩

/-- What a turn has booked has been carried out by its handler. -/
theorem exists_run_of_posted {call : Call} {p : Posting}
    (h : (call.turn recover s).posted? = some p) :
    ∃ context sender r t, (p.handle recover context sender).run.run s = (.ok r, t) := by
  have hposting : call.posting? = some p := Turn.posting?_of_posted h
  rw [Turn.posted?, turn] at h
  rcases hperform : call.perform recover s with ⟨failure | r, t⟩
  · rw [hperform] at h
    cases h
  have hrun := perform_eq_ok.mp hperform
  cases call with
  | instantiate | migrate => cases hposting
  | execute context sender message =>
    rw [run_handle_of_posting hposting] at hrun
    exact ⟨context, sender, r, t, hrun⟩

end Call

end TokenCustody
