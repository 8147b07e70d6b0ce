import TokenCustody.Proofs.WellFormed

/-!
# Defects

A *defect* is a failure that only an improper store gives rise to: an abort, a stored value that
cannot be read, a difference below zero, a pool of which more is reserved than held, a stored signer
that is no address. These failures stand in the code, and no caller ever sees them
(`TokenCustody.Proofs.Safety`).

The argument goes step by step. `Harmless` says that a result is as described or an error without a
defect; `Handler.Safe` says that from any well-formed store, a handler leaves a well-formed one and
ends in a harmless result. There is one rule for each way of building results and handlers
(`Harmless.bind`, `Handler.Safe.bind` and those beside them). That a given cause is no defect is a
matter of computation, and mostly proved by `id`.
-/

namespace TokenCustody

/-- The documents that are read from the store, rather than from a message or a reply. -/
def Schema.IsStored : Schema → Prop
  | .config | .account | .version | .pool | .mark => True
  | _ => False

/-- A difference below zero. -/
def Overflow.IsDefect : Overflow → Prop
  | .difference .. => True
  | .sum .. => False

/-- Failures below the bridge that only an improper store gives rise to. -/
def HostError.IsDefect : HostError → Prop
  | .malformed schema => schema.IsStored
  | .overflow cause => cause.IsDefect
  | .storedSigner | .poolKey _ | .nonceKey => True
  | _ => False

/-- Refusals that only an improper store gives rise to. A signer that is no identity counts as one,
though the message of an instantiation may name one too. -/
def Rejection.IsDefect : Rejection → Prop
  | .host cause => cause.IsDefect
  | .overflow cause => cause.IsDefect
  | .invalidSignerIdentity _ | .poolInvariantViolated .. => True
  | _ => False

/-- An abort, or an error that is a defect. -/
def Failure.IsDefect {ε : Type} (defect : ε → Prop) : Failure ε → Prop
  | .rejected cause => defect cause
  | .aborted _ => True

variable {ε δ α β : Type}

/-! ### Results -/

/-- A result as described, or an error that is no defect. -/
def Harmless (defect : ε → Prop) (post : α → Prop) : Except ε α → Prop
  | .ok a => post a
  | .error e => ¬ defect e

namespace Harmless

variable {defect : ε → Prop} {post : α → Prop} {x : Except ε α}

theorem bind {f : α → Except ε β} {postβ : β → Prop} (hx : Harmless defect post x)
    (hf : ∀ a, post a → Harmless defect postβ (f a)) : Harmless defect postβ (x >>= f) := by
  cases x with
  | ok a => exact hf a hx
  | error e => exact hx

/-- Errors under another name are defects only if they were before. -/
theorem mapError {f : ε → δ} {defect' : δ → Prop} (hx : Harmless defect post x)
    (h : ∀ e, defect' (f e) → defect e) : Harmless defect' post (x.mapError f) := by
  cases x with
  | ok a => exact hx
  | error e => exact fun hdefect => hx (h e hdefect)

/-- A rejection is a defect only if its error is one. -/
theorem rejected (hx : Harmless defect post x) :
    Harmless (Failure.IsDefect defect) post (x.mapError .rejected) :=
  hx.mapError fun _ => id

/-- An error of a harmless result is no defect. -/
theorem not_defect {e : ε} (hx : Harmless defect post x) (he : x = .error e) : ¬ defect e := by
  rw [he] at hx
  exact hx

end Harmless

/-! ### Handlers -/

/-- From any well-formed store, a handler leaves a well-formed one and answers as described, or
fails without a defect. -/
def Handler.Safe (h : Handler α) (post : α → Prop) : Prop :=
  ∀ s : Store, s.WellFormed →
    match h.run.run s with
    | (.ok a, t) => t.WellFormed ∧ post a
    | (.error failure, _) => ¬ failure.IsDefect Rejection.IsDefect

namespace Handler

variable {post : α → Prop} {cause : Rejection}

namespace Safe

/-- **A handler in two steps is safe if both are**, the second one for all answers of the first
one. -/
theorem bind {h : Handler α} {f : α → Handler β} {postβ : β → Prop} (hh : h.Safe post)
    (hf : ∀ a, post a → (f a).Safe postβ) : (h >>= f).Safe postβ := by
  intro s hs
  have hfirst := hh s hs
  rw [run_bind]
  rcases hrun : h.run.run s with ⟨failure | a, t⟩
  · rw [hrun] at hfirst
    exact hfirst
  · rw [hrun] at hfirst
    exact hf a hfirst.2 t hfirst.1

theorem mono {h : Handler α} {weaker : α → Prop} (hh : h.Safe post)
    (himp : ∀ a, post a → weaker a) : h.Safe weaker := by
  intro s hs
  have hrun := hh s hs
  rcases hcase : h.run.run s with ⟨failure | a, t⟩
  · rw [hcase] at hrun
    exact hrun
  · rw [hcase] at hrun
    exact ⟨hrun.1, himp a hrun.2⟩

theorem pure {a : α} (ha : post a) : (Pure.pure a : Handler α).Safe post :=
  fun _ hs => ⟨hs, ha⟩

theorem reject (hcause : ¬ cause.IsDefect) : (Handler.reject cause : Handler α).Safe post :=
  fun _ _ => hcause

theorem require {p : Prop} [Decidable p] (hcause : ¬ cause.IsDefect) :
    (Handler.require p cause).Safe fun _ => p := by
  unfold Handler.require
  split_ifs with hp
  · exact pure hp
  · exact reject hcause

theorem result {x : Except (Failure Rejection) α}
    (hx : Harmless (Failure.IsDefect Rejection.IsDefect) post x) :
    (Handler.result x).Safe post := by
  cases x with
  | ok a => exact pure hx
  | error failure => exact fun _ _ => hx

theorem accept {x : Except Rejection α} (hx : Harmless Rejection.IsDefect post x) :
    (Handler.accept x).Safe post := by
  cases x with
  | ok a => exact pure hx
  | error cause => exact reject hx

theorem host {x : Except HostError α} (hx : Harmless HostError.IsDefect post x) :
    (Handler.host x).Safe post := by
  cases x with
  | ok a => exact pure hx
  | error cause => exact fun _ _ => hx

/-- Asking is safe if every well-formed store has a harmless answer. -/
theorem ask {question : Store → Except HostError α}
    (hq : ∀ s : Store, s.WellFormed → Harmless HostError.IsDefect post (question s)) :
    (Handler.ask question).Safe post :=
  fun s hs => host (hq s hs) s hs

theorem save [Codec α] {slot : Slot α} {a : α} (ha : slot.key.Holds (writeJson a)) :
    (Handler.save slot a).Safe fun _ => True :=
  fun _ hs => ⟨hs.save ha, trivial⟩

theorem remove (slot : Slot α) : (Handler.remove slot).Safe fun _ => True :=
  fun _ hs => ⟨hs.remove slot, trivial⟩

/-- A safe handler stays safe behind a refusal that may come first. -/
theorem refuseIf {b : Bool} {h : Handler α} (hcause : ¬ cause.IsDefect) (hh : h.Safe post) :
    (do
      if b then
        Handler.reject cause
      h : Handler α).Safe post := by
  cases b with
  | false => exact hh
  | true => exact reject hcause

end Safe

end Handler

end TokenCustody
