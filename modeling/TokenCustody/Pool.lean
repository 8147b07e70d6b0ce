import TokenCustody.Failure

/-!
# Token pools

What the bridge holds of a token, and the part of it that is reserved as commission; the difference
may leave the bridge. The operations are `PoolAction`s on a pool in memory, and end by checking that
no more is reserved than held. A refusal may leave a change behind, such as the sum of a deposit
whose commission does not fit: nothing is stored from a refused action
(`TokenCustody.Ledger.Handler`), and on a solvent pool no refusal changes anything.
-/

namespace TokenCustody

/-- The amounts of one token. -/
structure Pool where
  /-- All that the bridge holds. -/
  held : Amount
  /-- The part that is reserved as commission. -/
  reserved : Amount
  deriving DecidableEq

/-- A change of a pool that may be refused on the way. -/
abbrev PoolAction := ExceptT Rejection (StateM Pool)

namespace Pool

/-- The pool of a token that has never been deposited. -/
def empty : Pool := ⟨0, 0⟩

/-- No more is reserved than held. -/
def Solvent (p : Pool) : Prop :=
  p.reserved ≤ p.held

instance (p : Pool) : Decidable p.Solvent :=
  inferInstanceAs (Decidable (p.reserved ≤ p.held))

/-- The amount that may leave the bridge. -/
def bridgeable (p : Pool) : Amount :=
  p.held.excess p.reserved

/-- Refuses a pool of which more is reserved than held. -/
def checkSolvent (p : Pool) : Except Rejection Unit :=
  if p.Solvent then .ok () else .error (.poolInvariantViolated p.held p.reserved)

end Pool

namespace PoolAction

/-- An amount, or a refusal because it is out of range. -/
def within (r : Except Overflow Amount) : PoolAction Amount :=
  match r with
  | .ok a => pure a
  | .error cause => throw (.overflow cause)

/-- Refuses if more is reserved than held. -/
def check : PoolAction Unit := do
  match (← get).checkSolvent with
  | .ok () => pure ()
  | .error cause => throw cause

/-- Takes a deposit in, with a part of it reserved as commission. -/
def deposit (amount commission : Amount) : PoolAction Unit := do
  if amount < commission then
    throw (.commissionGreaterThanAmount commission amount)
  let held ← within ((← get).held.add amount)
  modify fun p => { p with held }
  let reserved ← within ((← get).reserved.add commission)
  modify fun p => { p with reserved }
  check

/-- Lets an amount out that is not reserved. -/
def release (amount : Amount) : PoolAction Unit := do
  let available := (← get).bridgeable
  if available < amount then
    throw (.amountExceedBridgePool amount available)
  let held ← within ((← get).held.sub amount)
  modify fun p => { p with held }
  check

/-- Lets reserved commission out. -/
def withdraw (amount : Amount) : PoolAction Unit := do
  let available := (← get).reserved
  if available < amount then
    throw (.amountExceedCommissionPool amount available)
  let reserved ← within ((← get).reserved.sub amount)
  modify fun p => { p with reserved }
  let held ← within ((← get).held.sub amount)
  modify fun p => { p with held }
  check

end PoolAction

/-- An operation on a pool, by name. -/
inductive PoolStep where
  | deposit (amount commission : Amount)
  | release (amount : Amount)
  | withdraw (amount : Amount)
  | check
  deriving DecidableEq

namespace PoolStep

/-- The action of an operation. -/
def action : PoolStep → PoolAction Unit
  | .deposit amount commission => PoolAction.deposit amount commission
  | .release amount => PoolAction.release amount
  | .withdraw amount => PoolAction.withdraw amount
  | .check => PoolAction.check

/-- The outcome of an operation and the pool it leaves. -/
def perform (step : PoolStep) (p : Pool) : Except Rejection Unit × Pool :=
  step.action.run.run p

/-- The outcomes of a sequence of operations on one pool, each with the pool it leaves. -/
def trace : List PoolStep → Pool → List (Except Rejection Unit × Pool)
  | [], _ => []
  | step :: steps, p =>
    let outcome := step.perform p
    outcome :: trace steps outcome.2

end PoolStep

end TokenCustody
