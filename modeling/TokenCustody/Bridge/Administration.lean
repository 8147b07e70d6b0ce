import TokenCustody.Bridge.Release

/-!
# Administration

What the owner may change: the stable percentage, whether the bridge is paused, and, in two steps,
who the owner is. The owner proposes another, and the bridge changes hands only when that one
accepts.
-/

namespace TokenCustody

namespace Administration

open Release (asOwner)

/-- The response of a call that moves no tokens. -/
def response (attributes : List Attribute) : Response :=
  ⟨[], [], attributes⟩

/-- Sets the stable percentage of later deposits. -/
def setStablePercent (sender : String) (percent : UInt64) : Handler Response := do
  let config ← asOwner sender
  Handler.accept (Commission.checkStablePercent percent)
  Handler.save .config { config with stablePercent := percent }
  return response
    [("method", "set_stable_commission_percent"),
     .number "old_percent" config.stablePercent,
     .number "new_percent" percent]

/-- Pauses the bridge or lets it run on. -/
def setPaused (sender : String) (paused : Bool) : Handler Response := do
  let config ← asOwner sender
  Handler.require (config.paused ≠ paused) (.invalidPauseState paused)
  Handler.save .config { config with paused }
  return response [("method", if paused then "pause" else "unpause")]

/-- Proposes another owner, in place of any that has been proposed before. -/
def proposeOwner (sender newOwner : String) : Handler Response := do
  let _ ← asOwner sender
  Handler.host (Address.check newOwner)
  Handler.save .pendingOwner newOwner
  return response
    [("method", "propose_owner"),
     ("new_owner", newOwner)]

/-- Hands the bridge to the proposed owner. -/
def acceptOwnership (sender : String) : Handler Response := do
  let some newOwner ← Handler.ask (·.load? .pendingOwner) | Handler.reject .noPendingOwner
  Handler.require (sender = newOwner) .unauthorizedPendingOwner
  let config ← Handler.ask Store.config
  Handler.save .config { config with owner := newOwner }
  Handler.remove .pendingOwner
  return response
    [("method", "accept_ownership"),
     ("previous_owner", config.owner),
     ("new_owner", newOwner)]

/-- Takes a proposal back. -/
def cancelProposal (sender : String) : Handler Response := do
  let _ ← asOwner sender
  let some _ ← Handler.ask (·.load? .pendingOwner) | Handler.reject .noPendingOwner
  Handler.remove .pendingOwner
  return response [("method", "cancel_ownership_proposal")]

end Administration

end TokenCustody
