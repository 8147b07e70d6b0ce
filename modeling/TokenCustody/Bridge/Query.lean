import TokenCustody.Bridge.Release
import TokenCustody.Message.Question

/-!
# Queries

Questions are answered from the store, which they leave alone, and from the context. Only the
question for a pool reaches out, to the token contract, for the balance that the bridge has there;
what other contracts reply is a parameter.
-/

namespace TokenCustody

/-- What happens when a contract is asked for a balance. -/
inductive BalanceReply where
  /-- There is no such contract. -/
  | noContract
  /-- The contract fails. -/
  | failed (text : String)
  /-- The contract replies. -/
  | replied (text : String)

/-- What a contract replies when asked for the balance of an account. -/
abbrev BalanceSource := (contract account : String) → BalanceReply

/-- The balance of an account with a token contract. -/
def BalanceSource.balance (source : BalanceSource) (token account : String) :
    Except HostError Balance :=
  match source token account with
  | .noContract => .error (.noContract token)
  | .failed text => .error (.contractFailed text)
  | .replied text => Schema.balance.read text

namespace Question

/-- What a question fails with if a text is no address of a token, where the reason is kept back. -/
def checkToken (s : String) : Except HostError Unit :=
  if Address.IsValid s then .ok () else .error .tokenAddress

/-- The answer about a payload hash and the digest made of it. -/
def digestAnswer (payloadHash digest : Word) : Answer :=
  .digest ⟨payloadHash.toList, digest.toList⟩

/-- The settings as they are answered. -/
def configAnswer (config : Config) : Except HostError ConfigAnswer :=
  match config.signerAddress? with
  | none => .error .storedSigner
  | some signer =>
    .ok {
      owner := config.owner
      signer := signer.text
      stablePercent := config.stablePercent
      paused := config.paused }

/-- The pool of a token as it is answered, with the balance that the token contract replies. -/
def poolAnswer (source : BalanceSource) (context : Context) (store : Store) (token : String) :
    Except HostError PoolAnswer := do
  Address.check token
  let pool ← store.pool token
  let balance ← source.balance token context.bridge
  return {
    token
    held := pool.held
    reserved := pool.reserved
    bridgeable := pool.bridgeable
    tokenBalance := balance.amount }

/-- The commission on a deposit, however large it is. -/
def commissionAnswer (store : Store) (amount fixed : Amount) :
    Except (Failure HostError) Answer := do
  let config ← store.config.mapError .rejected
  let commission ←
    (Commission.charge amount fixed config.stablePercent).mapError (Failure.map .overflow)
  return .totalCommission commission

/-- The answer to a question, on a given store. -/
def answer (source : BalanceSource) (context : Context) (store : Store) :
    Question → Except (Failure HostError) Answer
  | .totalCommission amount fixed => commissionAnswer store amount fixed
  | .stableCommissionPercent => Except.mapError .rejected do
    let config ← store.config
    return .stableCommissionPercent config.stablePercent Commission.hundredPercent
  | .commissionPool token => Except.mapError .rejected do
    Address.check token
    let pool ← store.pool token
    return .commissionPool token pool.reserved
  | .chainId => .ok (.chainId context.chainId)
  | .config => Except.mapError .rejected do
    return .config (← configAnswer (← store.config))
  | .pool token => Except.mapError .rejected do
    return .pool (← poolAnswer source context store token)
  | .nonceUsed nonce => Except.mapError .rejected do
    return .nonceUsed { nonce, used := ← store.isUsed nonce }
  | .pendingOwner => Except.mapError .rejected do
    return .pendingOwner ((← store.load? .pendingOwner).map fun newOwner => { newOwner })
  | .bridgeInDigest user token amount terms => Except.mapError .rejected do
    Address.check user
    checkToken token
    let a : DepositAuthorization :=
      { user, bridge := context.bridge, chainId := context.chainId, token, amount, terms }
    return digestAnswer a.payloadHash a.signedDigest
  | .transferOutDigest terms => Except.mapError .rejected do
    checkToken terms.token
    Address.check terms.recipient
    let a := Release.authorization context terms
    return digestAnswer a.payloadHash a.signedDigest

/-- The text of the answer to a question that comes as a text. -/
def answerText (source : BalanceSource) (context : Context) (store : Store) (message : String) :
    Except (Failure HostError) String := do
  let question : Question ← (Schema.question.read message).mapError .rejected
  return (← question.answer source context store).text

end Question

end TokenCustody
