import TokenCustody.Ledger.Approval

/-!
# Steps on a ledger

The ledger of pools and nonces on its own, with approvals that are kept under names until they are
spent. Every step works on the store as it finds it, and nothing that a failed step has written is
undone.
-/

namespace TokenCustody

/-- A store, and approvals that have not been spent. -/
structure Ledger where
  store : Store
  /-- The approvals under their names. -/
  approvals : List (String × Approval)

/-- A step on a ledger. -/
inductive LedgerStep where
  | consume (nonce : UInt64)
  | isUsed (nonce : UInt64)
  | readPool (token : String)
  | storePool (token : String) (pool : Pool)
  /-- To verify a signature, and to keep the approval under a name. -/
  | verify (recover : Recovery) (trusted : EthAddress) (digest : Word) (signature : Bytes)
    (nonce : UInt64) (name : String)
  /-- To spend the approval of a name. -/
  | spend (name : String)

/-- What a step is answered with. -/
inductive LedgerAnswer where
  | done
  | used (b : Bool)
  | pool (pool : Pool)
  | approved (nonce : UInt64)
  | spent (nonce : UInt64)
  /-- There is no approval of that name. -/
  | noApproval
  deriving DecidableEq

namespace Ledger

/-- A ledger without entries. -/
def empty : Ledger := ⟨∅, []⟩

/-- The ledger without the approval of a name. -/
def forget (l : Ledger) (name : String) : Ledger :=
  { l with approvals := l.approvals.filter (·.1 ≠ name) }

/-- The ledger with an approval under a name, instead of any other. -/
def keep (l : Ledger) (name : String) (a : Approval) : Ledger :=
  { l with approvals := (name, a) :: (l.forget name).approvals }

/-- What a handler answers on the store of a ledger, and the ledger it leaves. -/
def run {α : Type} (l : Ledger) (h : Handler α) : Except (Failure Rejection) α × Ledger :=
  let (outcome, store) := h.run.run l.store
  (outcome, { l with store })

/-- What a step is answered with, and the ledger it leaves. -/
def perform (l : Ledger) : LedgerStep → Except (Failure Rejection) LedgerAnswer × Ledger
  | .consume nonce => l.run ((fun _ => .done) <$> Nonce.consume nonce)
  | .isUsed nonce => l.run (.used <$> Handler.ask (·.isUsed nonce))
  | .readPool token => l.run (.pool <$> Handler.ask (·.pool token))
  | .storePool token pool => l.run ((fun _ => .done) <$> Handler.storePool token pool)
  | .verify recover trusted digest signature nonce name =>
    match l.run (Approval.verify recover trusted digest signature nonce) with
    | (.ok approval, l) => (.ok (.approved approval.nonce), l.keep name approval)
    | (.error failure, l) => (.error failure, l)
  | .spend name =>
    match l.approvals.lookup name with
    | none => (.ok .noApproval, l)
    | some approval => (l.forget name).run (.spent <$> approval.spend)

/-- What a sequence of steps is answered with, each with the ledger it leaves. -/
def trace : Ledger → List LedgerStep → List (Except (Failure Rejection) LedgerAnswer × Ledger)
  | _, [] => []
  | l, step :: steps =>
    let outcome := l.perform step
    outcome :: trace outcome.2 steps

end Ledger

end TokenCustody
