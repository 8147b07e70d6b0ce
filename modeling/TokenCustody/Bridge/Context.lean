import TokenCustody.Ledger.Handler

/-!
# The context of a call

Where and when a call happens. Time is counted in nanoseconds, deadlines in seconds: a deadline has
passed when the second after it has begun.
-/

namespace TokenCustody

/-- Where and when a call happens. -/
structure Context where
  /-- Nanoseconds since the epoch. -/
  time : UInt64
  /-- The network. -/
  chainId : String
  /-- The address of the bridge itself. -/
  bridge : String
  deriving DecidableEq

namespace Context

/-- Whole seconds since the epoch. -/
def seconds (context : Context) : UInt64 :=
  context.time / 1000000000

/-- Refuses an authorization whose deadline has passed. -/
def refuseAfter (context : Context) (deadline : UInt64) : Except Rejection Unit :=
  if deadline < context.seconds then .error .invalidSignature else .ok ()

end Context

end TokenCustody
