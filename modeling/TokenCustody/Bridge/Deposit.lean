import TokenCustody.Bridge.Context
import TokenCustody.Bridge.Response
import TokenCustody.Commission
import TokenCustody.Ledger.Approval
import TokenCustody.Message.Command

/-!
# Deposits

A deposit is booked once the trusted signer has consented to its terms. The two ways in which tokens
arrive share one path: the bridge either pulls them from the user's allowance when the books are
settled, or has received them already.
-/

namespace TokenCustody

/-- The trusted signer, or a refusal because the stored one is no address. -/
def Config.signerIdentity (config : Config) : Except Rejection EthAddress :=
  match config.signerAddress? with
  | some signer => .ok signer
  | none => .error (.invalidSignerIdentity (.length config.signer.length))

/-- How the tokens of a deposit reach the bridge. -/
inductive Funding where
  /-- The bridge pulls them from the user's allowance. -/
  | allowance
  /-- They have been moved already. -/
  | received
  deriving DecidableEq

/-- A deposit that somebody asks for. -/
structure Deposit where
  user : String
  token : String
  amount : Amount
  consent : DepositConsent
  funding : Funding
  deriving DecidableEq

namespace Deposit

/-- The deposit of a user who calls the bridge. -/
def ofRequest (user : String) (request : DepositRequest) : Deposit where
  user
  token := request.token
  amount := request.amount
  consent := request.consent
  funding := .allowance

/-- The deposit that a token contract reports. The message that comes along must be a hook, and the
account that the tokens come from must have an address. -/
def ofNotice (token : String) (notice : TokenNotice) : Except HostError Deposit := do
  Address.check notice.sender
  let hook ← match (Utf8.decode notice.message).toOption.bind readJson? with
    | some hook => .ok hook
    | none => .error (.malformed .hook)
  match hook with
  | Hook.bridgeIn consent =>
    return {
      user := notice.sender
      token
      amount := notice.amount
      consent
      funding := .received }

/-- What the trusted signer must have signed. -/
def authorization (d : Deposit) (context : Context) : DepositAuthorization where
  user := d.user
  bridge := context.bridge
  chainId := context.chainId
  token := d.token
  amount := d.amount
  terms := d.consent.terms

/-- The event of a deposit. -/
def movement (d : Deposit) (nonce stablePercent : UInt64) (commission : Amount) : Movement :=
  .fundsIn d.user d.consent.terms.transactionId nonce d.token d.amount stablePercent
    d.consent.terms.gasCommission commission d.consent.terms.destinationChain
    d.consent.terms.destinationAddress

/-- The calls that bring in the tokens of a deposit. -/
def calls (d : Deposit) (context : Context) : List TokenCall :=
  match d.funding with
  | .allowance => [.ofOrder d.token (.transferFrom d.user context.bridge d.amount)]
  | .received => []

/-- The response to a deposit that has been booked. -/
def response (d : Deposit) (context : Context) (nonce stablePercent : UInt64)
    (commission : Amount) : Response where
  calls := d.calls context
  events := [(d.movement nonce stablePercent commission).event]
  attributes :=
    [("method", "bridge_in"),
     ("user", d.user),
     ("token", d.token),
     .amount "amount" d.amount,
     .amount "total_commission" commission,
     .number "nonce" nonce,
     ("payload_hash", Hex.marked (d.authorization context).payloadHash.toList)]

/-- Books a deposit: its checks, in the order in which they are reported, and then the pool and the
nonce. -/
def book (recover : Recovery) (context : Context) (d : Deposit) : Handler Response := do
  let config ← Handler.ask Store.config
  Handler.require (!config.paused) .bridgePaused
  Handler.require (Address.IsValid d.token) .invalidTokenAddress
  let terms := d.consent.terms
  Handler.require (terms.destinationAddress ≠ "") .invalidDestinationAddress
  Handler.require (terms.destinationChain ≠ "") .invalidDestinationChain
  Handler.require (d.amount ≠ 0) .invalidAmount
  Handler.accept (context.refuseAfter terms.deadline)
  let digest := (d.authorization context).signedDigest
  let signer ← Handler.accept config.signerIdentity
  let approval ← Approval.verify recover signer digest d.consent.signature terms.nonce
  let commission ←
    Handler.result (Commission.total d.amount terms.gasCommission config.stablePercent)
  let _ ← Handler.book d.token (PoolAction.deposit d.amount commission)
  let nonce ← approval.spend
  return d.response context nonce config.stablePercent commission

end Deposit

end TokenCustody
