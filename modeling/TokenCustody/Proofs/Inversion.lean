import TokenCustody.Ledger.Handler

/-!
# Taking successful computations apart

A sequence of steps succeeds exactly if each step does. Here this is said for results that may be
errors, for handlers, and for actions on a pool, so that what a whole handler has gone through when
it succeeds can be read off by rewriting: `simp only` with the lemmas for `>>=` and for the single
steps turns the run of a handler into the list of its checks.
-/

namespace TokenCustody

variable {ε δ α β : Type}

/-- A step without an answer of its own answers in one way only. -/
theorem exists_unit {p : Unit → Prop} : (∃ u, p u) ↔ p () :=
  ⟨fun ⟨(), h⟩ => h, fun h => ⟨(), h⟩⟩

/-! ### Results -/

theorem bind_eq_ok {x : Except ε α} {f : α → Except ε β} {b : β} :
    x >>= f = .ok b ↔ ∃ a, x = .ok a ∧ f a = .ok b := by
  cases x <;> simp [bind, Except.bind]

theorem pure_eq_ok {a b : α} : (pure a : Except ε α) = .ok b ↔ a = b :=
  ⟨Except.ok.inj, congrArg Except.ok⟩

theorem bind_eq_error {x : Except ε α} {f : α → Except ε β} {e : ε} :
    x >>= f = .error e ↔ x = .error e ∨ ∃ a, x = .ok a ∧ f a = .error e := by
  cases x <;> simp [bind, Except.bind]

@[simp]
theorem mapError_ok (f : ε → δ) (a : α) : (.ok a : Except ε α).mapError f = .ok a := rfl

@[simp]
theorem mapError_error (f : ε → δ) (e : ε) : (.error e : Except ε α).mapError f = .error (f e) :=
  rfl

theorem mapError_eq_ok {x : Except ε α} {f : ε → δ} {a : α} :
    x.mapError f = .ok a ↔ x = .ok a := by
  cases x <;> simp

theorem mapError_eq_error {x : Except ε α} {f : ε → δ} {d : δ} :
    x.mapError f = .error d ↔ ∃ e, x = .error e ∧ f e = d := by
  cases x <;> simp

theorem toOption_eq_some {x : Except ε α} {a : α} : x.toOption = some a ↔ x = .ok a := by
  cases x <;> simp [Except.toOption]

/-- A pair of a result and a state is determined by its two sides. -/
private theorem result_eq_iff {σ : Type} {x : Except ε α} {a : α} {s t : σ} :
    (x, s) = (.ok a, t) ↔ x = .ok a ∧ s = t :=
  Prod.mk.injEq .. ▸ Iff.rfl

/-! ### Handlers -/

namespace Handler

variable {h : Handler α} {f : α → Handler β} {s t : Store}

/-- **A handler in two steps succeeds if both do**, the second one on the store that the first
one leaves. -/
theorem bind_eq_ok {b : β} :
    (h >>= f).run.run s = (.ok b, t) ↔
      ∃ a s', h.run.run s = (.ok a, s') ∧ (f a).run.run s' = (.ok b, t) := by
  rw [run_bind]
  constructor
  · intro hb
    rcases hh : h.run.run s with ⟨_ | a, s'⟩ <;> rw [hh] at hb
    · cases hb
    · exact ⟨a, s', rfl, hb⟩
  · rintro ⟨a, s', ha, hb⟩
    rw [ha]
    exact hb

/-- A handler in two steps fails if the first one does, or if the second one does behind it. -/
theorem bind_eq_error {failure : Failure Rejection} :
    (h >>= f).run.run s = (.error failure, t) ↔
      h.run.run s = (.error failure, t) ∨
        ∃ a s', h.run.run s = (.ok a, s') ∧ (f a).run.run s' = (.error failure, t) := by
  rw [run_bind]
  constructor
  · intro hb
    rcases hh : h.run.run s with ⟨_ | a, s'⟩ <;> rw [hh] at hb
    · cases hb
      exact .inl rfl
    · exact .inr ⟨a, s', rfl, hb⟩
  · rintro (hh | ⟨a, s', ha, hb⟩)
    · rw [hh]
    · rw [ha]
      exact hb

/-- Behind a step that succeeds, the work goes on with its answer on the store that it leaves. -/
theorem run_bind_of_ok {a : α} (hh : h.run.run s = (.ok a, t)) :
    (h >>= f).run.run s = (f a).run.run t := by
  rw [run_bind, hh]

/-- The case of a step without an answer. -/
theorem run_bind_of_done {h : Handler Unit} {f : Unit → Handler β}
    (hh : h.run.run s = (.ok (), t)) : (h >>= f).run.run s = (f ()).run.run t :=
  run_bind_of_ok hh

/-- Behind a step that fails, nothing is done. -/
theorem run_bind_of_error {failure : Failure Rejection} (hh : h.run.run s = (.error failure, t)) :
    (h >>= f).run.run s = (.error failure, t) := by
  rw [run_bind, hh]

theorem pure_eq_ok {a b : α} : (pure a : Handler α).run.run s = (.ok b, t) ↔ a = b ∧ s = t := by
  rw [run_pure, result_eq_iff, Except.ok.injEq]

theorem require_eq_ok {p : Prop} [Decidable p] {cause : Rejection} {u : Unit} :
    (require p cause).run.run s = (.ok u, t) ↔ p ∧ s = t := by
  rw [run_require, result_eq_iff]
  by_cases hp : p <;> simp [hp]

theorem accept_eq_ok {x : Except Rejection α} {a : α} :
    (accept x).run.run s = (.ok a, t) ↔ x = .ok a ∧ s = t := by
  rw [run_accept, result_eq_iff, mapError_eq_ok]

theorem result_eq_ok {x : Except (Failure Rejection) α} {a : α} :
    (result x).run.run s = (.ok a, t) ↔ x = .ok a ∧ s = t := by
  rw [run_result, result_eq_iff]

theorem host_eq_ok {x : Except HostError α} {a : α} :
    (host x).run.run s = (.ok a, t) ↔ x = .ok a ∧ s = t := by
  rw [run_host, result_eq_iff, mapError_eq_ok]

/-- Behind a result that may be a failure, the work goes on from the same store. -/
theorem host_bind_eq_ok {x : Except HostError α} {b : β} :
    (host x >>= f).run.run s = (.ok b, t) ↔
      ∃ a, x = .ok a ∧ (f a).run.run s = (.ok b, t) := by
  simp only [bind_eq_ok, host_eq_ok, and_assoc, exists_and_left, exists_eq_left']

theorem ask_eq_ok {question : Store → Except HostError α} {a : α} :
    (ask question).run.run s = (.ok a, t) ↔ question s = .ok a ∧ s = t := by
  rw [run_ask, result_eq_iff, mapError_eq_ok]

theorem reject_eq_ok {cause : Rejection} {a : α} :
    (reject cause : Handler α).run.run s = (.ok a, t) ↔ False := by
  rw [run_reject, result_eq_iff]
  simp

theorem save_eq_ok [Codec α] {slot : Slot α} {a : α} {u : Unit} :
    (save slot a).run.run s = (.ok u, t) ↔ s.save slot a = t := by
  rw [run_save, result_eq_iff]
  simp

theorem remove_eq_ok {slot : Slot α} {u : Unit} :
    (remove slot).run.run s = (.ok u, t) ↔ s.remove slot = t := by
  rw [run_remove, result_eq_iff]
  simp

end Handler

/-! ### Actions on a pool -/

namespace PoolAction

variable {p q : Pool}

@[simp]
theorem run_throw (cause : Rejection) :
    (throw cause : PoolAction α).run.run p = (.error cause, p) := rfl

@[simp]
theorem run_get : (get : PoolAction Pool).run.run p = (.ok p, p) := rfl

@[simp]
theorem run_modify (f : Pool → Pool) : (modify f : PoolAction Unit).run.run p = (.ok (), f p) := rfl

/-- A refusal ends the action where it occurs; what has been changed stays. -/
@[simp]
theorem run_bind (x : PoolAction α) (f : α → PoolAction β) :
    (x >>= f).run.run p =
      match x.run.run p with
      | (.ok a, q) => (f a).run.run q
      | (.error cause, q) => (.error cause, q) := by
  simp only [ExceptT.run_bind, StateT.run_bind]
  rcases x.run.run p with ⟨_ | _, _⟩ <;> rfl

@[simp]
theorem run_within (x : Except Overflow Amount) :
    (within x).run.run p = (x.mapError .overflow, p) := by
  cases x <;> rfl

@[simp]
theorem run_check : check.run.run p = (p.checkSolvent, p) := by
  simp only [check, run_bind, run_get]
  cases p.checkSolvent <;> rfl

end PoolAction

end TokenCustody
