import Mathlib.Data.List.Nodup
import TokenCustody.Ledger.Step
import TokenCustody.Proofs.Atomicity

/-!
# However many approvals are kept, a nonce is consumed once

On a ledger, any number of approvals may be kept for one nonce, and each may be spent at any later
time, when the look at the marks that it was given for is long out of date. That no nonce is
consumed twice rests on the second look, which spending takes by itself, and on the layout of the
store: no pool that is stored in between touches a mark (`Ledger.nonce_consumed_once`).

The induction over a run is on one invariant, `Ledger.Marks`: the marks in the store are the nonces
consumed so far, each of them once. What a step does under it is said once, by
`Ledger.Marks.perform_cases`.
-/

namespace TokenCustody

/-! ### Histories of a ledger -/

namespace LedgerStep

/-- The nonce that a step on a ledger is to consume, itself or by an approval that is kept. -/
def redeems? (l : Ledger) : LedgerStep → Option UInt64
  | .consume nonce => some nonce
  | .spend name => (l.approvals.lookup name).map Approval.nonce
  | .isUsed _ | .readPool _ | .storePool .. | .verify .. => none

/-- The nonce that a step on a ledger needs to be unused: it is to consume it, or to approve it. -/
def claims? (l : Ledger) : LedgerStep → Option UInt64
  | .verify _ _ _ _ nonce _ => some nonce
  | step => step.redeems? l

/-- The steps that look at the store and leave it alone. -/
def OnlyReads : LedgerStep → Prop
  | .isUsed _ | .readPool _ | .verify .. => True
  | .consume _ | .storePool .. | .spend _ => False

variable {l : Ledger} {n : UInt64}

theorem claims?_of_redeems? (step : LedgerStep) (h : step.redeems? l = some n) :
    step.claims? l = some n := by
  cases step with
  | verify => cases h
  | _ => exact h

theorem not_onlyReads_of_redeems? (step : LedgerStep) (h : step.redeems? l = some n) :
    ¬ step.OnlyReads := by
  cases step with
  | consume | spend => exact id
  | _ => cases h

end LedgerStep

/-- One step of a run on a ledger. -/
structure LedgerTurn where
  /-- The ledger that the step found. -/
  before : Ledger
  step : LedgerStep
  outcome : Except (Failure Rejection) LedgerAnswer
  /-- The ledger that the step left. -/
  after : Ledger

namespace LedgerTurn

/-- The nonce that the step has consumed. -/
def consumed? (turn : LedgerTurn) : Option UInt64 :=
  match turn.outcome with
  | .ok _ => turn.step.redeems? turn.before
  | .error _ => none

/-- The nonces that the steps of a history have consumed, in order. -/
def consumed (turns : List LedgerTurn) : List UInt64 :=
  turns.filterMap consumed?

theorem consumed_cons (turn : LedgerTurn) (turns : List LedgerTurn) :
    consumed (turn :: turns) = turn.consumed?.toList ++ consumed turns := by
  rw [consumed, consumed, List.filterMap_cons]
  cases turn.consumed? <;> rfl

/-- A step goes by the nonces that have been consumed before it. -/
structure GoesBy (turn : LedgerTurn) (used : List UInt64) : Prop where
  /-- It is refused if it needs one of them to be unused. -/
  refused : ∀ n ∈ turn.step.claims? turn.before, n ∈ used →
    turn.outcome = .error (.rejected (.alreadyUsedSignature n))
  /-- It consumes any other nonce that it is to consume. -/
  consumes : ∀ n ∈ turn.step.redeems? turn.before, n ∉ used → turn.consumed? = some n
  /-- It answers for every nonce whether it is one of them. -/
  answered : ∀ n, turn.step = .isUsed n → turn.outcome = .ok (.used (decide (n ∈ used)))
  /-- It writes nothing if it only reads or if it is refused. -/
  unchanged : turn.step.OnlyReads ∨ (∃ failure, turn.outcome = .error failure) →
    turn.after.store = turn.before.store

end LedgerTurn

namespace Ledger

open Handler (ReadOnly)
open LedgerTurn (consumed consumed_cons)

/-- A step on a ledger, with its outcome. -/
def turn (l : Ledger) (step : LedgerStep) : LedgerTurn :=
  ⟨l, step, (l.perform step).1, (l.perform step).2⟩

/-- The steps of a run one by one. -/
def history : Ledger → List LedgerStep → List LedgerTurn
  | _, [] => []
  | l, step :: steps => l.turn step :: history (l.perform step).2 steps

/-- The ledger that a sequence of steps leaves. -/
def after (l : Ledger) (steps : List LedgerStep) : Ledger :=
  steps.foldl (fun l step => (l.perform step).2) l

/-- A history tells what the trace does. -/
theorem map_history (l : Ledger) (steps : List LedgerStep) :
    (l.history steps).map (fun turn => (turn.outcome, turn.after)) = l.trace steps := by
  induction steps generalizing l with
  | nil => rfl
  | cons step steps ih => exact congrArg (_ :: ·) (ih _)

theorem consumed?_turn_of_ok {l : Ledger} {step : LedgerStep} {answer : LedgerAnswer}
    (h : (l.perform step).1 = .ok answer) : (l.turn step).consumed? = step.redeems? l := by
  simp only [LedgerTurn.consumed?, turn, h]

theorem consumed?_turn_of_error {l : Ledger} {step : LedgerStep} {failure : Failure Rejection}
    (h : (l.perform step).1 = .error failure) : (l.turn step).consumed? = none := by
  simp only [LedgerTurn.consumed?, turn, h]

theorem consumed?_turn_of_redeems?_eq_none {l : Ledger} {step : LedgerStep}
    (hnone : step.redeems? l = none) : (l.turn step).consumed? = none := by
  cases houtcome : (l.perform step).1 with
  | ok answer => rw [consumed?_turn_of_ok houtcome, hnone]
  | error failure => exact consumed?_turn_of_error houtcome

/-! ### One step -/

/-- The marks in the store are the given nonces, each of them once. -/
structure Marks (l : Ledger) (used : List UInt64) : Prop where
  isUsed_eq : ∀ n, l.store.isUsed n = .ok (decide (n ∈ used))
  nodup : used.Nodup

variable {l : Ledger} {step : LedgerStep} {used : List UInt64} {n : UInt64}

theorem marks_empty : empty.Marks [] where
  isUsed_eq := Store.isUsed_empty
  nodup := List.nodup_nil

theorem run_map {α β : Type} (f : α → β) (h : Handler α) :
    l.run (f <$> h) =
      ((h.run.run l.store).1.map f, { l with store := (h.run.run l.store).2 }) := by
  rw [run, Handler.run_map]

theorem store_run_of_readOnly {α : Type} {h : Handler α} (hh : h.ReadOnly) (l : Ledger) :
    (l.run h).2.store = l.store :=
  hh l.store

theorem perform_spend {name : String} {a : Approval} (h : l.approvals.lookup name = some a) :
    l.perform (.spend name) = (l.forget name).run (LedgerAnswer.spent <$> a.spend) := by
  rw [perform, h]

/-- A step that is not to consume a nonce leaves the store alone, or stores a pool. -/
theorem store_perform_of_redeems?_eq_none (hnone : step.redeems? l = none) :
    (l.perform step).2.store = l.store ∨
      ∃ token pool answer, step = .storePool token pool ∧ (l.perform step).1 = .ok answer ∧
        (l.perform step).2.store = l.store.save (.pool token) pool := by
  cases step with
  | consume nonce => cases hnone
  | isUsed nonce =>
    have hreads := ReadOnly.ask (·.isUsed nonce)
    exact .inl (store_run_of_readOnly (hreads.map LedgerAnswer.used) l)
  | readPool token =>
    have hreads := ReadOnly.ask (·.pool token)
    exact .inl (store_run_of_readOnly (hreads.map LedgerAnswer.pool) l)
  | verify recover trusted digest signature nonce name =>
    have hreads : (Approval.verify recover trusted digest signature nonce).ReadOnly :=
      Approval.readOnly_verify
    have hstore := store_run_of_readOnly hreads l
    refine .inl ?_
    rw [perform]
    rcases hrun : l.run (Approval.verify recover trusted digest signature nonce) with ⟨_ | a, l'⟩
    all_goals
      rw [hrun] at hstore
      exact hstore
  | storePool token pool =>
    rw [perform, run_map]
    rcases hrun : (Handler.storePool token pool).run.run l.store with ⟨failure | u, t⟩
    · exact .inl (Handler.atomic_storePool token pool l.store failure t hrun)
    · exact .inr ⟨token, pool, _, rfl, rfl, (Handler.storePool_eq_ok.mp hrun).2.symm⟩
  | spend name =>
    have hlookup : l.approvals.lookup name = none := Option.map_eq_none_iff.mp hnone
    rw [perform, hlookup]
    exact .inl rfl

namespace Marks

theorem isUsed_of_mem (h : l.Marks used) (hn : n ∈ used) : l.store.isUsed n = .ok true := by
  rw [h.isUsed_eq, decide_eq_true hn]

theorem isUsed_of_notMem (h : l.Marks used) (hn : n ∉ used) : l.store.isUsed n = .ok false := by
  rw [h.isUsed_eq, decide_eq_false hn]

/-- **A nonce that has been consumed is refused**, whether it is to be consumed directly, to be
consumed by an approval, or to be approved. -/
theorem perform_of_mem (h : l.Marks used) (hn : n ∈ step.claims? l) (hused : n ∈ used) :
    (l.perform step).1 = .error (.rejected (.alreadyUsedSignature n)) ∧
      (l.perform step).2.store = l.store := by
  have hmark := h.isUsed_of_mem hused
  cases step with
  | consume nonce =>
    obtain rfl := Option.some.inj hn
    rw [perform, run_map, Nonce.consume_of_isUsed hmark]
    exact ⟨rfl, rfl⟩
  | verify recover trusted digest signature nonce name =>
    obtain rfl := Option.some.inj hn
    rw [perform, run, Approval.verify_of_isUsed hmark]
    exact ⟨rfl, rfl⟩
  | spend name =>
    obtain ⟨a, ha, rfl⟩ := Option.map_eq_some_iff.mp hn
    have hspend : a.spend.run.run (l.forget name).store = _ := Approval.spend_of_isUsed hmark
    rw [perform_spend ha, run_map, hspend]
    exact ⟨rfl, rfl⟩
  | isUsed | readPool | storePool => cases hn

/-- **A nonce that has not been consumed is consumed**, directly or by an approval. -/
theorem perform_of_notMem (h : l.Marks used) (hn : n ∈ step.redeems? l) (hunused : n ∉ used) :
    ∃ answer, (l.perform step).1 = .ok answer ∧
      (l.perform step).2.store = l.store.save (.nonce n) true := by
  have hmark := h.isUsed_of_notMem hunused
  cases step with
  | consume nonce =>
    obtain rfl := Option.some.inj hn
    have hconsume : (Nonce.consume nonce).run.run l.store = (.ok (), _) :=
      Nonce.consume_eq_ok.mpr ⟨hmark, rfl⟩
    rw [perform, run_map, hconsume]
    exact ⟨_, rfl, rfl⟩
  | spend name =>
    obtain ⟨a, ha, rfl⟩ := Option.map_eq_some_iff.mp hn
    have hspend : a.spend.run.run (l.forget name).store = _ :=
      Approval.spend_eq_ok.mpr ⟨hmark, rfl, rfl⟩
    rw [perform_spend ha, run_map, hspend]
    exact ⟨_, rfl, rfl⟩
  | isUsed | readPool | storePool | verify => cases hn

/-- **A step** consumes nothing and leaves the store alone, or it stores a pool, or it consumes a
nonce that has not been consumed. -/
theorem perform_cases (h : l.Marks used) (step : LedgerStep) :
    ((l.turn step).consumed? = none ∧ (l.perform step).2.store = l.store) ∨
      (∃ token pool answer, step = .storePool token pool ∧ (l.perform step).1 = .ok answer ∧
        (l.perform step).2.store = l.store.save (.pool token) pool) ∨
      ∃ n answer, step.redeems? l = some n ∧ n ∉ used ∧ (l.perform step).1 = .ok answer ∧
        (l.perform step).2.store = l.store.save (.nonce n) true := by
  cases hn : step.redeems? l with
  | some n =>
    by_cases hused : n ∈ used
    · obtain ⟨houtcome, hstore⟩ := h.perform_of_mem (step.claims?_of_redeems? hn) hused
      exact .inl ⟨consumed?_turn_of_error houtcome, hstore⟩
    · obtain ⟨answer, hanswer, hstore⟩ := h.perform_of_notMem hn hused
      exact .inr (.inr ⟨n, answer, rfl, hused, hanswer, hstore⟩)
  | none =>
    rcases store_perform_of_redeems?_eq_none hn with hstore | hstored
    · exact .inl ⟨consumed?_turn_of_redeems?_eq_none hn, hstore⟩
    · exact .inr (.inl hstored)

/-- **A step goes by the marks that it finds.** -/
theorem goesBy_turn (h : l.Marks used) (step : LedgerStep) : (l.turn step).GoesBy used where
  refused n hn hused := (h.perform_of_mem hn hused).1
  consumes n hn hunused := by
    obtain ⟨answer, hanswer, -⟩ := h.perform_of_notMem hn hunused
    exact (consumed?_turn_of_ok hanswer).trans hn
  answered n hstep := by
    obtain rfl : step = .isUsed n := hstep
    rw [turn, perform, run_map, Handler.run_ask, h.isUsed_eq]
    rfl
  unchanged hquiet := by
    rw [turn] at hquiet ⊢
    rcases h.perform_cases step with
      ⟨-, hstore⟩ | ⟨token, pool, answer, rfl, hanswer, -⟩ | ⟨n, answer, hn, -, hanswer, -⟩
    · exact hstore
    · rcases hquiet with hreads | ⟨failure, hfailure⟩
      · exact hreads.elim
      · cases hanswer.symm.trans hfailure
    · rcases hquiet with hreads | ⟨failure, hfailure⟩
      · exact absurd hreads (step.not_onlyReads_of_redeems? hn)
      · cases hanswer.symm.trans hfailure

/-- A step adds the nonce that it consumes to the marks, and leaves all others as they are. -/
theorem perform (h : l.Marks used) (step : LedgerStep) :
    (l.perform step).2.Marks (used ++ (l.turn step).consumed?.toList) := by
  rcases h.perform_cases step with
    ⟨hnone, hstore⟩ | ⟨token, pool, _, rfl, -, hstore⟩ | ⟨n, answer, hn, hused, hanswer, hstore⟩
  · rw [hnone, Option.toList_none, List.append_nil]
    exact ⟨fun m => hstore ▸ h.isUsed_eq m, h.nodup⟩
  · rw [consumed?_turn_of_redeems?_eq_none rfl, Option.toList_none, List.append_nil]
    refine ⟨fun m => ?_, h.nodup⟩
    rw [hstore, Store.isUsed_save_of_ne _ (by simp), h.isUsed_eq]
  · rw [consumed?_turn_of_ok hanswer, hn, Option.toList_some]
    refine ⟨fun m => ?_, h.nodup.append (List.nodup_singleton n) (by simpa using hused)⟩
    rw [hstore]
    by_cases hm : m = n
    · subst hm
      simp
    · rw [Store.isUsed_save_of_ne _ (by simpa using Ne.symm hm), h.isUsed_eq]
      simp [hm]

/-- **The marks are the nonces that have been consumed**, throughout a run. -/
theorem after (h : l.Marks used) (steps : List LedgerStep) :
    (l.after steps).Marks (used ++ consumed (l.history steps)) := by
  induction steps generalizing l used with
  | nil => simpa [consumed, history, Ledger.after] using h
  | cons step steps ih =>
    have hrest := ih (h.perform step)
    rw [List.append_assoc] at hrest
    exact consumed_cons (l.turn step) _ ▸ hrest

end Marks

/-- **A nonce is consumed once, however many approvals are kept for it.** In every run from the
empty ledger, with any recoveries, no nonce is consumed twice, directly or by an approval; the
marked nonces are those that have been consumed. Whatever step comes next, it is refused if it needs
a consumed nonce to be unused, whatever its signature is; it consumes any other nonce that it is to
consume; and it writes nothing if it only reads or if it is refused. -/
theorem nonce_consumed_once (steps : List LedgerStep) :
    let l := empty.after steps
    let used := consumed (empty.history steps)
    used.Nodup ∧ (∀ n, l.store.isUsed n = .ok (decide (n ∈ used))) ∧
      ∀ step, (l.turn step).GoesBy used := by
  intro l used
  have hmarks : l.Marks used := marks_empty.after steps
  exact ⟨hmarks.nodup, hmarks.isUsed_eq, hmarks.goesBy_turn⟩

end Ledger

end TokenCustody
