import TokenCustody.Proofs.History
import TokenCustody.Proofs.Safety

/-!
# Every nonce is used once

In the history of a run from the empty store, no two calls consume the same nonce, and the marks in
the store are exactly the nonces that have been consumed; so a mark is never taken away, neither by
a migration nor by setting the bridge up anew. A posting with a consumed nonce that is admissible
otherwise is refused for that nonce, whatever its signature is (`Call.nonce_used_once`).

Two facts on a single call carry this (`Call.isUsed_perform_of_mem` and
`Call.isUsed_perform_of_notMem`): a nonce that a call consumes was unused before and is used
afterwards, and all other marks are left as they are.
-/

namespace TokenCustody

namespace Turn

/-- The nonce that the call has consumed. -/
def nonce? (turn : Turn) : Option UInt64 :=
  turn.posted?.bind Posting.nonce?

/-- The nonces that the calls of a history have consumed, in order. -/
def consumed (turns : List Turn) : List UInt64 :=
  turns.filterMap nonce?

theorem mem_consumed_cons {turn : Turn} {turns : List Turn} {n : UInt64} :
    n ∈ consumed (turn :: turns) ↔ n ∈ turn.nonce? ∨ n ∈ consumed turns := by
  simp [consumed]

end Turn

namespace Call

open Store (isUsed_empty)
open Turn (consumed)

variable {recover : Recovery} {s : Store} {call : Call} {n : UInt64}

/-! ### One call -/

/-- A nonce that a call consumes was unused, and is used from then on. -/
theorem isUsed_perform_of_mem (h : n ∈ (call.turn recover s).nonce?) :
    s.isUsed n = .ok false ∧ (call.perform recover s).2.isUsed n = .ok true := by
  rw [Turn.nonce?] at h
  rcases turn_cases recover call s with ⟨hnone, -⟩ | ⟨p, context, config, before, after, hp, hb⟩
  · rw [hnone] at h
    cases h
  · rw [hp] at h
    rw [hb.store_eq]
    exact ⟨hb.unused n h, Posting.isUsed_write_of_mem h s after⟩

/-- The mark of a nonce that a call does not consume stays as it is. -/
theorem isUsed_perform_of_notMem (h : n ∉ (call.turn recover s).nonce?) :
    (call.perform recover s).2.isUsed n = s.isUsed n := by
  rw [Turn.nonce?] at h
  rcases turn_cases recover call s with
    ⟨-, hbooks, -⟩ | ⟨p, context, config, before, after, hp, hb⟩
  · exact hbooks.isUsed_eq n
  · rw [hp] at h
    rw [hb.store_eq]
    exact Posting.isUsed_write_of_notMem h s after

/-! ### Runs -/

/-- A nonce that a run consumes was unused when the run began. -/
theorem isUsed_of_mem_consumed {calls : List Call} (h : n ∈ consumed (history recover calls s)) :
    s.isUsed n = .ok false := by
  induction calls generalizing s with
  | nil => cases h
  | cons call calls ih =>
    -- the first call consumes the nonce, or leaves its mark for the rest of the run
    by_cases hn : n ∈ (call.turn recover s).nonce?
    · exact (isUsed_perform_of_mem hn).1
    · rw [← isUsed_perform_of_notMem hn]
      exact ih ((Turn.mem_consumed_cons.mp h).resolve_left hn)

/-- After a run, the used nonces are those that were used before and those that it has consumed. -/
theorem isUsed_run {b : Bool} (calls : List Call) (h : s.isUsed n = .ok b) :
    (run recover calls s).isUsed n =
      .ok (b || decide (n ∈ consumed (history recover calls s))) := by
  induction calls generalizing s b with
  | nil => simpa [consumed, history] using h
  | cons call calls ih =>
    rw [run_cons, history]
    simp only [Turn.mem_consumed_cons]
    by_cases hn : n ∈ (call.turn recover s).nonce?
    · rw [ih (isUsed_perform_of_mem hn).2]
      simp [hn]
    · rw [ih ((isUsed_perform_of_notMem hn).trans h)]
      simp [hn]

/-- A run consumes no nonce twice. -/
theorem nodup_consumed (calls : List Call) (s : Store) :
    (consumed (history recover calls s)).Nodup := by
  induction calls generalizing s with
  | nil => exact List.nodup_nil
  | cons call calls ih =>
    rw [history, consumed, List.filterMap_cons]
    split
    next => exact ih _
    next n hn =>
      -- what the rest of the run consumes is unused behind this call, but its own nonce is used
      refine List.nodup_cons.mpr ⟨fun hmem => ?_, ih _⟩
      have hused := (isUsed_perform_of_mem hn).2
      rw [isUsed_of_mem_consumed hmem] at hused
      cases hused

/-- **A nonce is used once.** In every run from the empty store, no two calls consume the same
nonce; the used nonces are those that have been consumed, and stay used whatever calls follow; and
an admissible posting with one of them is refused for it. -/
theorem nonce_used_once (signer? : Word → Bytes → Option EthAddress) (calls : List Call) :
    let recover := Recovery.ofOption signer?
    let store := run recover calls ∅
    let used := consumed (history recover calls ∅)
    used.Nodup ∧ (∀ n, store.isUsed n = .ok (decide (n ∈ used))) ∧
      ∀ n ∈ used, (∀ more, (run recover more store).isUsed n = .ok true) ∧
        ∀ (context : Context) (sender message : String) (p : Posting) (config : Config),
          (Call.execute context sender message).posting? = some p → n ∈ p.nonce? →
            store.config = .ok config → p.Admissible context config →
              (Call.execute context sender message).perform recover store =
                (.error (.rejected (.alreadyUsedSignature n)), store) := by
  intro recover store used
  have hmarks (n : UInt64) : store.isUsed n = .ok (decide (n ∈ used)) :=
    isUsed_run calls (isUsed_empty n)
  refine ⟨nodup_consumed calls ∅, hmarks, fun n hn => ?_⟩
  have hused : store.isUsed n = .ok true := by rw [hmarks, decide_eq_true hn]
  refine ⟨fun more => isUsed_run more hused, ?_⟩
  intro context sender message p config hp hnonce hconfig hadmissible
  -- the signer of a reachable store is an address, so the nonce is the first thing to fail
  have hs : store.WellFormed := run_wellFormed signer? calls Store.WellFormed.empty
  obtain ⟨signer, hsigner⟩ := (hs.sound_of_config hconfig).signerIdentity
  have hrun : (p.handle recover context sender).run.run store =
      (.error (.rejected (.alreadyUsedSignature n)), store) :=
    Posting.handle_of_isUsed hconfig hadmissible (Config.signerIdentity_eq_ok.mp hsigner) hnonce
      hused
  rw [perform, run_handle_of_posting hp, hrun]

end Call

end TokenCustody
