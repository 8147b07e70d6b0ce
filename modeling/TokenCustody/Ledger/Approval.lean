import TokenCustody.Curve.Recovery
import TokenCustody.Ledger.Handler

/-!
# Nonces and approvals

Each authorization carries a nonce, and each nonce serves once. `Approval.verify` finds out whether
the trusted signer has signed a digest and its nonce is unused; the approval that it gives is spent
by consuming the nonce. Verifying writes nothing. It looks at the nonce first, so that a used nonce
is reported whatever the signature is.

How a signature names its signer is a parameter, the `Recovery`; `Signature.recovery` is the one
that the bridge uses.
-/

namespace TokenCustody

/-- The signer that a signature over a digest names. -/
abbrev Recovery := Word → Bytes → Except Rejection EthAddress

/-- The recovery that refuses a signature which names nobody. -/
def Recovery.ofOption (signer? : Word → Bytes → Option EthAddress) : Recovery :=
  fun digest signature =>
    match signer? digest signature with
    | some signer => .ok signer
    | none => .error .invalidSignature

/-- The recovery of Ethereum-style signatures. -/
def Signature.recovery : Recovery := .ofOption Signature.recover?

namespace Nonce

/-- Marks a nonce as consumed, unless it already is. -/
def consume (nonce : UInt64) : Handler Unit := do
  if ← Handler.ask (·.isUsed nonce) then
    Handler.reject (.alreadyUsedSignature nonce)
  Handler.save (.nonce nonce) true

end Nonce

/-- The permission to consume a nonce. -/
structure Approval where
  nonce : UInt64
  deriving DecidableEq

namespace Approval

/-- Approves a nonce for a digest that the trusted signer has signed. -/
def verify (recover : Recovery) (trusted : EthAddress) (digest : Word) (signature : Bytes)
    (nonce : UInt64) : Handler Approval := do
  if ← Handler.ask (·.isUsed nonce) then
    Handler.reject (.alreadyUsedSignature nonce)
  let signer ← Handler.accept (recover digest signature)
  Handler.require (signer = trusted) .invalidSignature
  return ⟨nonce⟩

/-- Spends an approval: its nonce is consumed and answered. -/
def spend (a : Approval) : Handler UInt64 := do
  Nonce.consume a.nonce
  return a.nonce

end Approval

end TokenCustody
