import TokenCustody.Bridge.Administration

/-!
# Calls and runs

The calls of the bridge, and what a sequence of them makes of its store. The message of a call is a
text, and reading it is part of the call. A call that fails leaves the store as it was: this is the
doing of `Call.perform`, not of the handlers.
-/

namespace TokenCustody

namespace Instantiation

/-- The first owner: the one that is named, who must have an address, or else the sender. -/
def ownerOr (m : Instantiation) (sender : String) : Except HostError String :=
  match m.owner with
  | some owner => (Address.check owner).map fun _ => owner
  | none => .ok sender

/-- The trusted signer, or a refusal because the text is no address. -/
def signerIdentity (m : Instantiation) : Except Rejection EthAddress :=
  (EthAddress.parse m.signer).mapError fun fault => .invalidSignerIdentity (.text fault)

/-- Sets the bridge up. -/
def handle (context : Context) (sender : String) (m : Instantiation) : Handler Response := do
  Handler.save .version Version.current
  let owner ← Handler.host (m.ownerOr sender)
  let signer ← Handler.accept m.signerIdentity
  let stablePercent := m.stablePercent.getD Commission.defaultStablePercent
  Handler.accept (Commission.checkStablePercent stablePercent)
  Handler.save .config { owner, signer := signer.toList, stablePercent, paused := false }
  return Administration.response
    [("method", "instantiate"),
     ("owner", owner),
     ("signer", signer.text),
     .number "stable_commission_percent" stablePercent,
     ("chain_id", context.chainId)]

end Instantiation

namespace Migration

/-- Records the version. -/
def handle (_ : Migration) : Handler Response := do
  Handler.save .version Version.current
  return Administration.response
    [("method", "migrate"),
     ("version", Version.current.version)]

end Migration

namespace Command

/-- Carries a command out. -/
def handle (recover : Recovery) (context : Context) (sender : String) :
    Command → Handler Response
  | .bridgeIn request => (Deposit.ofRequest sender request).book recover context
  | .receive notice => do
    let deposit ← Handler.host (Deposit.ofNotice sender notice)
    deposit.book recover context
  | .transferOut request => Release.present recover context request
  | .bridgeOut settlement => Release.settle sender settlement
  | .withdrawCommission token amount => Release.withdrawCommission sender token amount
  | .setStableCommissionPercent percent => Administration.setStablePercent sender percent
  | .pause => Administration.setPaused sender true
  | .unpause => Administration.setPaused sender false
  | .proposeOwner newOwner => Administration.proposeOwner sender newOwner
  | .acceptOwnership => Administration.acceptOwnership sender
  | .cancelOwnershipProposal => Administration.cancelProposal sender

end Command

/-- A call from outside, with the text of its message. -/
inductive Call where
  | instantiate (context : Context) (sender message : String)
  | execute (context : Context) (sender message : String)
  | migrate (context : Context) (message : String)
  deriving DecidableEq

/-- How a call ends. -/
abbrev Outcome := Except (Failure Rejection) Response

namespace Call

/-- Reads the message of a call and carries it out. -/
def handle (recover : Recovery) : Call → Handler Response
  | .instantiate context sender message => do
    let m : Instantiation ← Handler.host (Schema.instantiation.read message)
    m.handle context sender
  | .execute context sender message => do
    let m : Command ← Handler.host (Schema.command.read message)
    m.handle recover context sender
  | .migrate _ message => do
    let m : Migration ← Handler.host (Schema.migration.read message)
    m.handle

/-- How a call ends, and the store it leaves: the old one if it fails. -/
def perform (recover : Recovery) (call : Call) (store : Store) : Outcome × Store :=
  match (call.handle recover).run.run store with
  | (.ok response, store) => (.ok response, store)
  | (.error failure, _) => (.error failure, store)

/-- How the calls of a sequence end, each with the store it leaves. -/
def trace (recover : Recovery) : List Call → Store → List (Outcome × Store)
  | [], _ => []
  | call :: calls, store =>
    let outcome := call.perform recover store
    outcome :: trace recover calls outcome.2

/-- The store that a sequence of calls leaves. -/
def run (recover : Recovery) (calls : List Call) (store : Store) : Store :=
  calls.foldl (fun store call => (call.perform recover store).2) store

end Call

end TokenCustody
