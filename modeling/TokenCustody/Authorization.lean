import TokenCustody.Amount
import TokenCustody.Hash.Word

/-!
# Authorizations

What the trusted signer commits to: a deposit or a release, with the contract and the network it is
meant for. An authorization is a sequence of fields behind a tag that tells the two kinds apart;
each field becomes one word, and the payload hash is the hash of all words in order.
-/

namespace TokenCustody

/-- One field of an authorization. -/
inductive PayloadField where
  /-- A text of any length. -/
  | text (s : String)
  /-- A number below `2 ^ 256`. -/
  | number (n : Nat)

namespace PayloadField

/-- The word of a field. -/
def word : PayloadField → Word
  | .text s => Word.ofText s
  | .number n => Word.ofNat n

end PayloadField

/-- The hash of the words of a sequence of fields. -/
def payloadHash (fields : List PayloadField) : Word :=
  keccak256 (fields.flatMap fun field => field.word.toList)

/-- What a deposit is made for, apart from the token and the amount. -/
structure DepositTerms where
  /-- The fixed part of the commission. -/
  gasCommission : Amount
  destinationChain : String
  destinationAddress : String
  /-- The last second at which the consent holds. -/
  deadline : UInt64
  nonce : UInt64
  /-- The number of the deposit in the signer's records. -/
  transactionId : UInt64
  deriving DecidableEq

/-- The signer's consent to a deposit. -/
structure DepositAuthorization where
  /-- The depositing account. -/
  user : String
  /-- The contract that is to take the deposit. -/
  bridge : String
  /-- The network of that contract. -/
  chainId : String
  /-- The token contract. -/
  token : String
  amount : Amount
  terms : DepositTerms
  deriving DecidableEq

namespace DepositAuthorization

/-- The tag of deposits. -/
def tag : String := "CUSTODY_BRIDGE/BRIDGE_IN"

/-- The fields in signed order, the tag in front. -/
def fields (a : DepositAuthorization) : List PayloadField :=
  [.text tag, .text a.user, .text a.bridge, .text a.chainId, .text a.token,
   .number a.amount.val, .number a.terms.gasCommission.val,
   .text a.terms.destinationChain, .text a.terms.destinationAddress,
   .number a.terms.deadline.toNat, .number a.terms.nonce.toNat,
   .number a.terms.transactionId.toNat]

/-- The hash of a deposit authorization. -/
def payloadHash (a : DepositAuthorization) : Word :=
  TokenCustody.payloadHash a.fields

/-- The digest that is signed for a deposit. -/
def signedDigest (a : DepositAuthorization) : Word :=
  Word.personalDigest a.payloadHash

end DepositAuthorization

/-- What is released, to whom, and on what occasion. -/
structure ReleaseTerms where
  /-- The token contract. -/
  token : String
  recipient : String
  /-- The released amount, net of commission. -/
  amount : Amount
  /-- The commission that was taken off, for the record only. -/
  totalCommission : Amount
  /-- The last second at which the consent holds. -/
  deadline : UInt64
  nonce : UInt64
  /-- The number of the release in the signer's records. -/
  transactionId : UInt64
  deriving DecidableEq

/-- The signer's consent to a release. -/
structure ReleaseAuthorization where
  /-- The contract that is to release. -/
  bridge : String
  /-- The network of that contract. -/
  chainId : String
  terms : ReleaseTerms
  deriving DecidableEq

namespace ReleaseAuthorization

/-- The tag of releases. -/
def tag : String := "CUSTODY_BRIDGE/TRANSFER_OUT"

/-- The fields in signed order, the tag in front. -/
def fields (a : ReleaseAuthorization) : List PayloadField :=
  [.text tag, .text a.bridge, .text a.chainId, .text a.terms.token, .text a.terms.recipient,
   .number a.terms.amount.val, .number a.terms.totalCommission.val,
   .number a.terms.deadline.toNat, .number a.terms.nonce.toNat,
   .number a.terms.transactionId.toNat]

/-- The hash of a release authorization. -/
def payloadHash (a : ReleaseAuthorization) : Word :=
  TokenCustody.payloadHash a.fields

/-- The digest that is signed for a release. -/
def signedDigest (a : ReleaseAuthorization) : Word :=
  Word.personalDigest a.payloadHash

end ReleaseAuthorization

end TokenCustody
