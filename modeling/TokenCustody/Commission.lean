import TokenCustody.Failure

/-!
# Commission

The commission on a deposit is a stable percentage of its amount, rounded down, and a fixed part
that comes with the request. Percentages are in hundredths of a percent. The share is computed
exactly; a share too large for an amount, which only a percentage above a hundred percent can give,
aborts.
-/

namespace TokenCustody

namespace Commission

/-- A hundred percent, in hundredths of a percent. -/
def hundredPercent : UInt64 := 10000

/-- The stable percentage of a bridge that is set up without one. -/
def defaultStablePercent : UInt64 := 400

/-- The exact share of an amount, rounded down. -/
def share (amount : Amount) (percent : UInt64) : Nat :=
  amount.val * percent.toNat / hundredPercent.toNat

/-- The commission on an amount, however large it is. -/
def charge (amount fixed : Amount) (percent : UInt64) : Except (Failure Overflow) Amount :=
  match Amount.ofNat? (share amount percent) with
  | none => .error (.aborted .multiplicationOverflow)
  | some stable => (stable.add fixed).mapError .rejected

/-- The commission on a deposit, which must not be greater than the deposit itself. -/
def total (amount fixed : Amount) (percent : UInt64) : Except (Failure Rejection) Amount := do
  let commission ← (charge amount fixed percent).mapError (Failure.map .overflow)
  if amount < commission then
    throw (.rejected (.commissionGreaterThanAmount commission amount))
  return commission

/-- Checks that a stable percentage is one that the bridge may be set to. -/
def checkStablePercent (percent : UInt64) : Except Rejection Unit :=
  if maxStablePercent < percent then .error (.invalidStableCommissionPercent percent)
  else .ok ()

end Commission

end TokenCustody
