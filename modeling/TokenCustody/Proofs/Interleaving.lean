import TokenCustody.Proofs.PoolAction

/-!
# Releases and withdrawals do not interfere

Releases and withdrawals lower the same amount, what is held. Still, however the releases and the
withdrawals of a solvent pool are interleaved, each of them ends as it would without those of the
other kind, down to the amounts that a refusal tells, and the pool that is left is the same
(`PoolStep.interleaved_independent`).

The two kinds of operation draw on the two parts of a pool, what is bridgeable and what is reserved.
A solvent pool is given by its parts (`Pool.eq_of_available`). A draw on a part ends according to
that part alone, which it lowers by the same amount from all pools that agree in it, and it leaves
the other part as it is (`PoolStep.exists_perform_draw`, `PoolStep.AgreeIn.perform_draw`). So a run
shows of one part what is left of the run when the draws on the other part are taken out
(`PoolStep.outcomesOn_eq_filter`).
-/

namespace TokenCustody

/-! ### Interleavings -/

/-- The third list is made of the elements of the other two, each of which keeps its order. -/
inductive Interleaved {α : Type} : List α → List α → List α → Prop
  | nil : Interleaved [] [] []
  | left (a : α) {l r m : List α} : Interleaved l r m → Interleaved (a :: l) r (a :: m)
  | right (a : α) {l r m : List α} : Interleaved l r m → Interleaved l (a :: r) (a :: m)

namespace Interleaved

variable {α : Type} {l r m : List α} {p : α → Bool}

theorem nil_left (r : List α) : Interleaved [] r r := by
  induction r with
  | nil => exact .nil
  | cons a r ih => exact .right a ih

/-- One list behind the other is an interleaving. -/
theorem append (l r : List α) : Interleaved l r (l ++ r) := by
  induction l with
  | nil => exact nil_left r
  | cons a l ih => exact .left a ih

theorem symm (h : Interleaved l r m) : Interleaved r l m := by
  induction h with
  | nil => exact .nil
  | left a _ ih => exact .right a ih
  | right a _ ih => exact .left a ih

theorem mem_or_mem (h : Interleaved l r m) {a : α} (ha : a ∈ m) : a ∈ l ∨ a ∈ r := by
  induction h with
  | nil => cases ha
  | left b _ ih =>
    rcases List.mem_cons.mp ha with rfl | ha
    · exact .inl List.mem_cons_self
    · exact (ih ha).imp_left (List.mem_cons_of_mem b)
  | right b _ ih =>
    rcases List.mem_cons.mp ha with rfl | ha
    · exact .inr List.mem_cons_self
    · exact (ih ha).imp_right (List.mem_cons_of_mem b)

/-- What tells the elements of one list from those of the other finds that list again. -/
theorem filter_eq_left (h : Interleaved l r m) (hl : ∀ a ∈ l, p a = true)
    (hr : ∀ a ∈ r, p a = false) : m.filter p = l := by
  induction h with
  | nil => rfl
  | left a _ ih =>
    rw [List.filter_cons_of_pos (hl a List.mem_cons_self)]
    exact congrArg (a :: ·) (ih (fun b hb => hl b (List.mem_cons_of_mem a hb)) hr)
  | right a _ ih =>
    rw [List.filter_cons_of_neg (by simp [hr a List.mem_cons_self])]
    exact ih hl fun b hb => hr b (List.mem_cons_of_mem a hb)

end Interleaved

/-! ### The parts of a pool -/

/-- A part of a pool that operations draw on. -/
inductive PoolPart where
  /-- What may leave the bridge. -/
  | bridgeable
  /-- The commission. -/
  | reserved
  deriving DecidableEq

/-- The refusal of a draw, with the amount that is asked for and what there is of the part. -/
def PoolPart.refusal : PoolPart → Amount → Amount → Rejection
  | bridgeable => .amountExceedBridgePool
  | reserved => .amountExceedCommissionPool

namespace Pool

/-- What there is of a part. -/
def available (p : Pool) : PoolPart → Amount
  | .bridgeable => p.bridgeable
  | .reserved => p.reserved

/-- A solvent pool is given by its parts. -/
theorem eq_of_available {p q : Pool} (hp : p.Solvent) (hq : q.Solvent)
    (h : ∀ part, p.available part = q.available part) : p = q := by
  have hreserved : p.reserved.val = q.reserved.val := congrArg Amount.val (h .reserved)
  have hbridgeable : p.held.val - p.reserved.val = q.held.val - q.reserved.val :=
    congrArg Amount.val (h .bridgeable)
  have hple : p.reserved.val ≤ p.held.val := hp
  have hqle : q.reserved.val ≤ q.held.val := hq
  exact ext (by omega) hreserved

end Pool

namespace PoolStep

/-- The operation that draws an amount on a part. -/
def draw : PoolPart → Amount → PoolStep
  | .bridgeable => release
  | .reserved => withdraw

/-- The part that an operation draws on. -/
def part? : PoolStep → Option PoolPart
  | .release _ => some .bridgeable
  | .withdraw _ => some .reserved
  | .deposit .. | .check => none

/-- The operations that draw on a part. -/
def drawsOn (part : PoolPart) (step : PoolStep) : Bool :=
  step.part? = some part

theorem part?_draw (part : PoolPart) (a : Amount) : (draw part a).part? = some part := by
  cases part <;> rfl

theorem eq_draw_of_part? {step : PoolStep} {part : PoolPart} (h : step.part? = some part) :
    ∃ a, step = draw part a := by
  cases step with
  | release a => exact ⟨a, by cases h; rfl⟩
  | withdraw a => exact ⟨a, by cases h; rfl⟩
  | deposit | check => cases h

/-! ### One draw -/

variable {p q : Pool} {part other : PoolPart} {a : Amount}

/-- **A draw on a solvent pool** goes as far as what there is of its part, which it lowers, and
leaves the other part as it is. -/
theorem exists_perform_draw (hp : p.Solvent) (hle : a ≤ p.available part) :
    ∃ q, (draw part a).perform p = (.ok (), q) ∧ q.Solvent ∧
      q.available part = (p.available part).excess a ∧
      ∀ other ≠ part, q.available other = p.available other := by
  cases part with
  | bridgeable =>
    obtain ⟨q, hrun⟩ := PoolAction.exists_run_release hp hle
    obtain ⟨hheld, hreserved, hsolvent⟩ := PoolAction.release_eq_ok.mp hrun
    refine ⟨q, hrun, hsolvent, Amount.ext ?_, fun other hne => ?_⟩
    · simp only [Pool.available, Pool.bridgeable, Amount.val_excess, hreserved]
      omega
    · cases other with
      | bridgeable => cases hne rfl
      | reserved => exact hreserved
  | reserved =>
    obtain ⟨q, hrun⟩ := PoolAction.exists_run_withdraw hp hle
    obtain ⟨hheld, hreserved, hsolvent⟩ := PoolAction.withdraw_eq_ok.mp hrun
    refine ⟨q, hrun, hsolvent, Amount.ext (Nat.eq_sub_of_add_eq hreserved), fun other hne => ?_⟩
    cases other with
    | bridgeable =>
      -- both sides of the difference lose the same
      refine Amount.ext ?_
      simp only [Pool.available, Pool.bridgeable, Amount.val_excess]
      omega
    | reserved => cases hne rfl

/-- Beyond what there is of its part, a draw is refused and changes nothing. -/
theorem perform_draw_of_lt (hlt : p.available part < a) :
    (draw part a).perform p = (.error (part.refusal a (p.available part)), p) := by
  cases part with
  | bridgeable => exact PoolAction.run_release_of_lt hlt
  | reserved => exact PoolAction.run_withdraw_of_lt hlt

/-! ### Pools that agree in a part -/

/-- Two solvent pools agree in a part. -/
structure AgreeIn (part : PoolPart) (p q : Pool) : Prop where
  solvent_left : p.Solvent
  solvent_right : q.Solvent
  available_eq : p.available part = q.available part

namespace AgreeIn

/-- **A draw on a part in which two pools agree** ends alike, and leaves pools that agree in it. -/
theorem perform_draw (h : AgreeIn part p q) (a : Amount) :
    ((draw part a).perform p).1 = ((draw part a).perform q).1 ∧
      AgreeIn part ((draw part a).perform p).2 ((draw part a).perform q).2 := by
  by_cases hle : a ≤ p.available part
  · obtain ⟨p', hrun, hsolvent, hpart, -⟩ := exists_perform_draw h.solvent_left hle
    obtain ⟨q', hrun', hsolvent', hpart', -⟩ :=
      exists_perform_draw h.solvent_right (h.available_eq ▸ hle)
    rw [hrun, hrun']
    exact ⟨rfl, hsolvent, hsolvent', by rw [hpart, hpart', h.available_eq]⟩
  · have hlt : p.available part < a := Nat.lt_of_not_le hle
    rw [perform_draw_of_lt hlt, perform_draw_of_lt (h.available_eq ▸ hlt), h.available_eq]
    exact ⟨rfl, h⟩

/-- A draw on the other part of one of the pools is not seen. -/
theorem perform_draw_other (h : AgreeIn part p q) (hne : part ≠ other) (a : Amount) :
    AgreeIn part ((draw other a).perform p).2 q := by
  by_cases hle : a ≤ p.available other
  · obtain ⟨p', hrun, hsolvent, -, hrest⟩ := exists_perform_draw h.solvent_left hle
    rw [hrun]
    exact ⟨hsolvent, h.solvent_right, (hrest part hne).trans h.available_eq⟩
  · rw [perform_draw_of_lt (Nat.lt_of_not_le hle)]
    exact h

end AgreeIn

/-! ### Runs -/

/-- The operations of a run, each with its outcome. -/
def outcomes (steps : List PoolStep) (p : Pool) : List (PoolStep × Except Rejection Unit) :=
  steps.zip ((trace steps p).map Prod.fst)

/-- The draws on a part in a run, each with its outcome. -/
def outcomesOn (part : PoolPart) (steps : List PoolStep) (p : Pool) :
    List (PoolStep × Except Rejection Unit) :=
  (outcomes steps p).filter fun outcome => outcome.1.drawsOn part

/-- The pool that a run leaves. -/
def run (steps : List PoolStep) (p : Pool) : Pool :=
  steps.foldl (fun p step => (step.perform p).2) p

variable {step : PoolStep} {steps : List PoolStep}

theorem outcomes_cons (step : PoolStep) (steps : List PoolStep) (p : Pool) :
    outcomes (step :: steps) p = (step, (step.perform p).1) :: outcomes steps (step.perform p).2 :=
  rfl

theorem outcomesOn_cons_of_pos (h : step.drawsOn part = true) :
    outcomesOn part (step :: steps) p =
      (step, (step.perform p).1) :: outcomesOn part steps (step.perform p).2 :=
  List.filter_cons_of_pos h

theorem outcomesOn_cons_of_neg (h : ¬ step.drawsOn part = true) :
    outcomesOn part (step :: steps) p = outcomesOn part steps (step.perform p).2 :=
  List.filter_cons_of_neg h

theorem run_cons (step : PoolStep) (steps : List PoolStep) (p : Pool) :
    run (step :: steps) p = run steps (step.perform p).2 :=
  rfl

/-- **A run of draws shows of one part what is left of it** when the draws on the other part are
taken out: the draws on the part end alike, and the pools that are left agree in it. -/
theorem outcomesOn_eq_filter (hdraws : ∀ step ∈ steps, step.part? ≠ none)
    (h : AgreeIn part p q) :
    outcomesOn part steps p = outcomes (steps.filter (drawsOn part)) q ∧
      AgreeIn part (run steps p) (run (steps.filter (drawsOn part)) q) := by
  induction steps generalizing p q with
  | nil => exact ⟨rfl, h⟩
  | cons step steps ih =>
    have hrest : ∀ step ∈ steps, step.part? ≠ none := fun step hstep =>
      hdraws step (List.mem_cons_of_mem _ hstep)
    obtain ⟨other, hother⟩ := Option.ne_none_iff_exists'.mp (hdraws step List.mem_cons_self)
    obtain ⟨a, rfl⟩ := eq_draw_of_part? hother
    by_cases hpart : part = other
    · subst hpart
      have hdraw : drawsOn part (draw part a) = true := decide_eq_true hother
      obtain ⟨houtcome, hleft⟩ := h.perform_draw a
      obtain ⟨houtcomes, hrun⟩ := ih hrest hleft
      rw [outcomesOn_cons_of_pos hdraw, List.filter_cons_of_pos hdraw, outcomes_cons, run_cons,
        run_cons, houtcomes, houtcome]
      exact ⟨rfl, hrun⟩
    · have hdraw : ¬ drawsOn part (draw other a) = true := by
        simpa [drawsOn, part?_draw] using Ne.symm hpart
      rw [outcomesOn_cons_of_neg hdraw, List.filter_cons_of_neg hdraw, run_cons]
      exact ih hrest (h.perform_draw_other hpart a)

/-- **However the draws on two parts are interleaved**, those on one part end as in the run of them
alone, and the pool that is left agrees with the one that they alone leave. -/
theorem outcomesOn_of_interleaved (part other : PoolPart) (hne : part ≠ other) (hp : p.Solvent)
    {drawn others : List Amount}
    (h : Interleaved (drawn.map (draw part)) (others.map (draw other)) steps) :
    outcomesOn part steps p = outcomes (drawn.map (draw part)) p ∧
      AgreeIn part (run steps p) (run (drawn.map (draw part)) p) := by
  have hpart : ∀ step ∈ drawn.map (draw part), step.part? = some part :=
    List.forall_mem_map.mpr fun a _ => part?_draw part a
  have hother : ∀ step ∈ others.map (draw other), step.part? = some other :=
    List.forall_mem_map.mpr fun a _ => part?_draw other a
  have hdraws : ∀ step ∈ steps, step.part? ≠ none := by
    intro step hstep
    rcases h.mem_or_mem hstep with hstep | hstep
    · simp [hpart step hstep]
    · simp [hother step hstep]
  have hfilter : steps.filter (drawsOn part) = drawn.map (draw part) := by
    refine h.filter_eq_left (fun step hstep => decide_eq_true (hpart step hstep)) ?_
    intro step hstep
    rw [drawsOn, hother step hstep]
    simpa using Ne.symm hne
  exact hfilter ▸ outcomesOn_eq_filter hdraws ⟨hp, hp, rfl⟩

variable {released withdrawn : List Amount} {steps' : List PoolStep}

/-- The pool that is left does not depend on the interleaving. -/
theorem run_eq_of_interleaved (hp : p.Solvent)
    (h : Interleaved (released.map release) (withdrawn.map withdraw) steps)
    (h' : Interleaved (released.map release) (withdrawn.map withdraw) steps') :
    run steps p = run steps' p := by
  obtain ⟨-, hbridgeable⟩ := outcomesOn_of_interleaved .bridgeable .reserved (by decide) hp h
  obtain ⟨-, hbridgeable'⟩ := outcomesOn_of_interleaved .bridgeable .reserved (by decide) hp h'
  obtain ⟨-, hreserved⟩ := outcomesOn_of_interleaved .reserved .bridgeable (by decide) hp h.symm
  obtain ⟨-, hreserved'⟩ := outcomesOn_of_interleaved .reserved .bridgeable (by decide) hp h'.symm
  refine Pool.eq_of_available hbridgeable.solvent_left hbridgeable'.solvent_left fun part => ?_
  cases part with
  | bridgeable => exact hbridgeable.available_eq.trans hbridgeable'.available_eq.symm
  | reserved => exact hreserved.available_eq.trans hreserved'.available_eq.symm

/-- **Releases and withdrawals do not interfere.** However the releases and the withdrawals of a
solvent pool are interleaved, each release ends as it does in the run of the releases alone, each
withdrawal as it does in the run of the withdrawals alone, and the pool that is left is the one that
the releases and, behind them, the withdrawals leave. So nothing of this depends on the
interleaving. -/
theorem interleaved_independent (hp : p.Solvent)
    (h : Interleaved (released.map release) (withdrawn.map withdraw) steps) :
    outcomesOn .bridgeable steps p = outcomes (released.map release) p ∧
      outcomesOn .reserved steps p = outcomes (withdrawn.map withdraw) p ∧
      run steps p = run (released.map release ++ withdrawn.map withdraw) p := by
  obtain ⟨hreleased, -⟩ := outcomesOn_of_interleaved .bridgeable .reserved (by decide) hp h
  obtain ⟨hwithdrawn, -⟩ := outcomesOn_of_interleaved .reserved .bridgeable (by decide) hp h.symm
  exact ⟨hreleased, hwithdrawn, run_eq_of_interleaved hp h (.append _ _)⟩

/-- From a pool of ten units, four of them reserved: of the releases of five and of two units the
second is refused, of two withdrawals of three units the second too, and each refusal tells what its
own kind has left. -/
theorem interleaved_independent_of_four :
    let amount (n : Fin 16) : Amount := ⟨n, Nat.lt_trans n.isLt (by decide)⟩
    let p : Pool := ⟨amount 10, amount 4⟩
    let steps := [withdraw (amount 3), release (amount 5), release (amount 2), withdraw (amount 3)]
    p.Solvent ∧
      Interleaved ([amount 5, amount 2].map release) ([amount 3, amount 3].map withdraw) steps ∧
      outcomesOn .bridgeable steps p =
        [(release (amount 5), .ok ()),
         (release (amount 2), .error (.amountExceedBridgePool (amount 2) (amount 1)))] ∧
      outcomesOn .reserved steps p =
        [(withdraw (amount 3), .ok ()),
         (withdraw (amount 3), .error (.amountExceedCommissionPool (amount 3) (amount 1)))] ∧
      run steps p = ⟨amount 2, amount 1⟩ := by
  intro amount p steps
  have hp : p.Solvent := by decide
  have h : Interleaved ([amount 5, amount 2].map release) ([amount 3, amount 3].map withdraw)
      steps := .right _ (.left _ (.left _ (.right _ .nil)))
  obtain ⟨hreleased, hwithdrawn, hrun⟩ := interleaved_independent hp h
  exact ⟨hp, h, hreleased.trans (by decide), hwithdrawn.trans (by decide),
    hrun.trans (by decide)⟩

end PoolStep

end TokenCustody
