import TokenCustody.Address
import TokenCustody.Amount
import TokenCustody.EthAddress
import TokenCustody.Json.Schema

/-!
# Failures

Three kinds of failure, each a cause with its message. A `HostError` comes from below the bridge: a
document that cannot be read, an address that is none, a contract that does not answer. A
`Rejection` is the bridge's refusal of a call. An `Abort` ends a call without an answer of its own.
A call fails by rejection or by abort, which is what `Failure` says of any kind of error.

A malformed document has no message: it is reported by the `Schema` that it does not match.
-/

namespace TokenCustody

/-- A failure below the bridge. -/
inductive HostError where
  /-- A text that is no document of the given kind. -/
  | malformed (schema : Schema)
  /-- A text that is no address. -/
  | address (fault : Address.Fault)
  /-- A text that is no address, where the address of a token is asked for. -/
  | tokenAddress
  /-- There is no configuration. -/
  | noConfig
  /-- The signer in the configuration does not have the length of an address. -/
  | storedSigner
  /-- There is no contract of the given address. -/
  | noContract (contract : String)
  /-- A contract failed to answer. -/
  | contractFailed (text : String)
  /-- A sum or difference out of range. -/
  | overflow (cause : Overflow)
  /-- The key of a pool does not end in a text. -/
  | poolKey (fault : Utf8.Fault)
  /-- The key of a nonce does not have the length of one. -/
  | nonceKey
  deriving DecidableEq

/-- The message of a failure below the bridge. -/
def HostError.message? : HostError → Option String
  | .malformed _ => none
  | .address fault => some fault.message
  | .tokenAddress => some "Generic error: Invalid token address"
  | .noConfig =>
    some "type: custody_bridge::state::Config; key: [63, 6F, 6E, 66, 69, 67] not found"
  | .storedSigner => some "Generic error: Stored signer is not an Ethereum address"
  | .noContract contract =>
    some s!"Generic error: Querier system error: No such contract: {contract}"
  | .contractFailed text => some s!"Generic error: Querier contract error: {text}"
  | .overflow cause => some s!"Overflow: {cause.message}"
  | .poolKey fault => some fault.message
  | .nonceKey => some "Generic error: could not convert slice to array"

/-- Refuses a text that is no address, with the reason. -/
def Address.check (s : String) : Except HostError Unit :=
  match Address.fault? s with
  | some fault => .error (.address fault)
  | none => .ok ()

/-- Why the trusted signer is no identity. -/
inductive SignerFault where
  /-- Its text is no address. -/
  | text (fault : EthAddress.TextFault)
  /-- It has the given number of bytes. -/
  | length (found : Nat)
  deriving DecidableEq

/-- The message for a trusted signer that is no identity. -/
def SignerFault.message : SignerFault → String
  | .text fault => fault.message
  | .length found => s!"expected 20 bytes, got {Decimal.text found}"

/-- The greatest stable percentage, in hundredths of a percent. -/
def maxStablePercent : UInt64 := 9000

/-- The bridge's refusal of a call. -/
inductive Rejection where
  | host (cause : HostError)
  | overflow (cause : Overflow)
  /-- The sender is not the owner. -/
  | unauthorized
  /-- The sender is not the proposed owner. -/
  | unauthorizedPendingOwner
  | noPendingOwner
  | bridgePaused
  /-- The bridge is already paused, or already running. -/
  | invalidPauseState (paused : Bool)
  /-- The signature is not the trusted signer's, or came too late. -/
  | invalidSignature
  /-- An authorization of this nonce has been used. -/
  | alreadyUsedSignature (nonce : UInt64)
  | invalidSignerIdentity (cause : SignerFault)
  | invalidTokenAddress
  | invalidRecipientAddress
  | invalidDestinationAddress
  | invalidDestinationChain
  /-- The amount is zero. -/
  | invalidAmount
  | commissionGreaterThanAmount (commission amount : Amount)
  | invalidStableCommissionPercent (percent : UInt64)
  /-- More is to be released than is held apart from the commission. -/
  | amountExceedBridgePool (requested available : Amount)
  /-- More is to be withdrawn than is reserved as commission. -/
  | amountExceedCommissionPool (requested available : Amount)
  /-- More is reserved than held. -/
  | poolInvariantViolated (held reserved : Amount)
  deriving DecidableEq

/-- The message of a refusal. -/
def Rejection.message? : Rejection → Option String
  | .host cause => cause.message?
  | .overflow cause => some cause.message
  | .unauthorized => some "Unauthorized: only owner can perform this action"
  | .unauthorizedPendingOwner => some "Unauthorized: only pending owner can accept"
  | .noPendingOwner => some "No pending owner change"
  | .bridgePaused => some "Bridge is paused"
  | .invalidPauseState paused => some s!"Bridge pause state is already {paused}"
  | .invalidSignature => some "Invalid signature"
  | .alreadyUsedSignature nonce =>
    some s!"Signature already used: nonce {Decimal.text nonce.toNat}"
  | .invalidSignerIdentity cause => some s!"Invalid signer identity: {cause.message}"
  | .invalidTokenAddress => some "Invalid token address"
  | .invalidRecipientAddress => some "Invalid recipient address"
  | .invalidDestinationAddress => some "Invalid destination address"
  | .invalidDestinationChain => some "Invalid destination chain"
  | .invalidAmount => some "Invalid amount: Amount must be greater than zero"
  | .commissionGreaterThanAmount commission amount =>
    some s!"Commission {commission.text} is greater than amount {amount.text}"
  | .invalidStableCommissionPercent percent =>
    let found := Decimal.text percent.toNat
    let max := Decimal.text maxStablePercent.toNat
    some s!"Invalid stable commission percent: {found} exceeds max {max}"
  | .amountExceedBridgePool requested available =>
    some s!"Amount {requested.text} exceeds bridge pool {available.text}"
  | .amountExceedCommissionPool requested available =>
    some s!"Amount {requested.text} exceeds commission pool {available.text}"
  | .poolInvariantViolated held reserved =>
    some s!"Pool invariant violated: commission {reserved.text} exceeds held {held.text}"

/-- An end of a call without an answer. -/
inductive Abort where
  /-- A share of an amount is itself too large for an amount. -/
  | multiplicationOverflow
  deriving DecidableEq

/-- The message of an abort. -/
def Abort.message : Abort → String
  | .multiplicationOverflow => "Multiplication overflow"

/-- How a call fails. -/
inductive Failure (ε : Type) where
  /-- The call is answered with an error. -/
  | rejected (error : ε)
  /-- The call ends without an answer. -/
  | aborted (cause : Abort)
  deriving DecidableEq

namespace Failure

/-- A failure whose error, if it is one, is another. -/
def map {ε δ : Type} (f : ε → δ) : Failure ε → Failure δ
  | .rejected error => .rejected (f error)
  | .aborted cause => .aborted cause

end Failure

end TokenCustody
