import TokenCustody.Pool
import TokenCustody.Store.Basic

/-!
# Handlers

A `Handler` works on the store and may fail on the way. What it has written until then stays
written: undoing a failed call is not its work (`TokenCustody.Bridge.Run`). Here are the steps that
handlers are made of, among them `Handler.book`, which works on the stored pool of a token and
stores the outcome of an accepted action only.
-/

namespace TokenCustody

/-- Work on the store that may fail. -/
abbrev Handler := ExceptT (Failure Rejection) (StateM Store)

namespace Handler

/-- Refuses the call. -/
def reject {α : Type} (cause : Rejection) : Handler α :=
  throw (.rejected cause)

/-- Refuses the call unless a condition holds. -/
def require (p : Prop) [Decidable p] (cause : Rejection) : Handler Unit :=
  if p then pure () else reject cause

/-- A result that may be a refusal. -/
def accept {α : Type} : Except Rejection α → Handler α
  | .ok a => pure a
  | .error cause => reject cause

/-- A result that may be any failure. -/
def result {α : Type} : Except (Failure Rejection) α → Handler α
  | .ok a => pure a
  | .error failure => throw failure

/-- A result that may be a failure below the bridge. -/
def host {α : Type} : Except HostError α → Handler α
  | .ok a => pure a
  | .error cause => reject (.host cause)

/-- What the store says. -/
def ask {α : Type} (question : Store → Except HostError α) : Handler α := do
  host (question (← get))

/-- Puts a value into a slot. -/
def save {α : Type} [Codec α] (slot : Slot α) (a : α) : Handler Unit :=
  modify (·.save slot a)

/-- Leaves nothing in a slot. -/
def remove {α : Type} (slot : Slot α) : Handler Unit :=
  modify (·.remove slot)

/-- Stores the pool of a token, unless more is reserved than held. -/
def storePool (token : String) (pool : Pool) : Handler Unit := do
  accept pool.checkSolvent
  save (.pool token) pool

/-- Works on the pool of a token, and answers the pool it leaves. -/
def book (token : String) (action : PoolAction Unit) : Handler Pool := do
  let pool ← ask (·.pool token)
  let (outcome, pool) := action.run.run pool
  accept outcome
  storePool token pool
  return pool

/-! ### What the steps do -/

variable {α β : Type}

@[simp]
theorem run_pure (a : α) (s : Store) : (pure a : Handler α).run.run s = (.ok a, s) := rfl

@[simp]
theorem run_throw (failure : Failure Rejection) (s : Store) :
    (throw failure : Handler α).run.run s = (.error failure, s) := rfl

/-- A failure ends the work where it occurs; what has been written stays. -/
@[simp]
theorem run_bind (h : Handler α) (f : α → Handler β) (s : Store) :
    (h >>= f).run.run s =
      match h.run.run s with
      | (.ok a, s) => (f a).run.run s
      | (.error failure, s) => (.error failure, s) := by
  simp only [ExceptT.run_bind, StateT.run_bind]
  rcases h.run.run s with ⟨_ | _, _⟩ <;> rfl

@[simp]
theorem run_map (f : α → β) (h : Handler α) (s : Store) :
    (f <$> h).run.run s = ((h.run.run s).1.map f, (h.run.run s).2) := by
  rw [← bind_pure_comp, run_bind]
  rcases h.run.run s with ⟨_ | _, _⟩ <;> rfl

@[simp]
theorem run_reject (cause : Rejection) (s : Store) :
    (reject cause : Handler α).run.run s = (.error (.rejected cause), s) := rfl

@[simp]
theorem run_require (p : Prop) [Decidable p] (cause : Rejection) (s : Store) :
    (require p cause).run.run s = (if p then .ok () else .error (.rejected cause), s) := by
  unfold require
  split <;> rfl

@[simp]
theorem run_accept (r : Except Rejection α) (s : Store) :
    (accept r).run.run s = (r.mapError .rejected, s) := by
  cases r <;> rfl

@[simp]
theorem run_result (r : Except (Failure Rejection) α) (s : Store) :
    (result r).run.run s = (r, s) := by
  cases r <;> rfl

@[simp]
theorem run_host (r : Except HostError α) (s : Store) :
    (host r).run.run s = (r.mapError fun cause => .rejected (.host cause), s) := by
  cases r <;> rfl

@[simp]
theorem run_ask (question : Store → Except HostError α) (s : Store) :
    (ask question).run.run s = ((question s).mapError fun cause => .rejected (.host cause), s) :=
  run_host (question s) s

@[simp]
theorem run_save [Codec α] (slot : Slot α) (a : α) (s : Store) :
    (save slot a).run.run s = (.ok (), s.save slot a) := rfl

@[simp]
theorem run_remove (slot : Slot α) (s : Store) :
    (remove slot).run.run s = (.ok (), s.remove slot) := rfl

end Handler

end TokenCustody
