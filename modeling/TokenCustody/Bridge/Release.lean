import TokenCustody.Bridge.Deposit

/-!
# Releases

Tokens leave the bridge from the part of a pool that is not reserved, on the owner's authority or on
the trusted signer's; commission leaves it on the owner's authority only.
-/

namespace TokenCustody

namespace Release

/-- The settings, if the sender is the owner. -/
def asOwner (sender : String) : Handler Config := do
  let config ← Handler.ask Store.config
  Handler.require (sender = config.owner) .unauthorized
  return config

/-- Refuses a release without a token, a recipient or an amount. -/
def checkTerms (token recipient : String) (amount : Amount) : Handler Unit := do
  Handler.require (Address.IsValid token) .invalidTokenAddress
  Handler.require (Address.IsValid recipient) .invalidRecipientAddress
  Handler.require (amount ≠ 0) .invalidAmount

/-- The response to a release by the owner. -/
def settlementResponse (q : Settlement) : Response where
  calls := [.ofOrder q.token (.transfer q.recipient q.amount)]
  events :=
    [(Movement.fundsOut q.recipient q.token q.amount q.transactionId q.sourceChain
      q.sourceAddress).event]
  attributes :=
    [("method", "bridge_out"),
     ("recipient", q.recipient),
     ("token", q.token),
     .amount "amount" q.amount,
     .number "transaction_id" q.transactionId]

/-- A release by the owner. -/
def settle (sender : String) (q : Settlement) : Handler Response := do
  let _ ← asOwner sender
  checkTerms q.token q.recipient q.amount
  let _ ← Handler.book q.token (PoolAction.release q.amount)
  return settlementResponse q

/-- What the trusted signer must have signed. -/
def authorization (context : Context) (terms : ReleaseTerms) : ReleaseAuthorization where
  bridge := context.bridge
  chainId := context.chainId
  terms

/-- The response to a release by the trusted signer. -/
def releaseResponse (context : Context) (terms : ReleaseTerms) (nonce : UInt64) : Response where
  calls := [.ofOrder terms.token (.transfer terms.recipient terms.amount)]
  events :=
    [(Movement.transferOut terms.recipient terms.transactionId nonce terms.token
      terms.amount).event]
  attributes :=
    [("method", "transfer_out"),
     ("recipient", terms.recipient),
     ("token", terms.token),
     .amount "amount" terms.amount,
     .number "nonce" nonce,
     ("payload_hash", Hex.marked (authorization context terms).payloadHash.toList)]

/-- A release by the trusted signer, whoever presents it. -/
def present (recover : Recovery) (context : Context) (q : ReleaseRequest) : Handler Response := do
  let config ← Handler.ask Store.config
  Handler.require (!config.paused) .bridgePaused
  let terms := q.terms
  checkTerms terms.token terms.recipient terms.amount
  Handler.accept (context.refuseAfter terms.deadline)
  let digest := (authorization context terms).signedDigest
  let signer ← Handler.accept config.signerIdentity
  let approval ← Approval.verify recover signer digest q.signature terms.nonce
  let _ ← Handler.book terms.token (PoolAction.release terms.amount)
  let nonce ← approval.spend
  return releaseResponse context terms nonce

/-- The response to a withdrawal of commission, with what is left of it. -/
def withdrawalResponse (owner token : String) (amount remaining : Amount) : Response where
  calls := [.ofOrder token (.transfer owner amount)]
  events := [(Movement.withdrawCommission token amount).event]
  attributes :=
    [("method", "withdraw_commission"),
     ("token", token),
     .amount "amount" amount,
     .amount "remaining_commission" remaining]

/-- A withdrawal of commission, to the owner. -/
def withdrawCommission (sender token : String) (amount : Amount) : Handler Response := do
  let config ← asOwner sender
  Handler.require (Address.IsValid token) .invalidTokenAddress
  let pool ← Handler.book token (PoolAction.withdraw amount)
  return withdrawalResponse config.owner token amount pool.reserved

end Release

end TokenCustody
