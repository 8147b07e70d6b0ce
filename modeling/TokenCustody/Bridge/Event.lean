import TokenCustody.Amount

/-!
# Events

Every movement of tokens in the books of the bridge is announced by one event. The journal of all
events says as much as the books themselves (`Movement.event` keeps token, amounts and nonce).
-/

namespace TokenCustody

/-- A name and a value that are reported to the outside. -/
abbrev Attribute := String × String

/-- An event that is reported to the outside. -/
structure Event where
  kind : String
  attributes : List Attribute
  deriving DecidableEq

namespace Attribute

/-- An amount as the value of an attribute. -/
def amount (name : String) (a : Amount) : Attribute :=
  (name, a.text)

/-- A number as the value of an attribute. -/
def number (name : String) (n : UInt64) : Attribute :=
  (name, Decimal.text n.toNat)

end Attribute

/-- A movement of tokens in the books. -/
inductive Movement where
  /-- A deposit. -/
  | fundsIn (user : String) (transactionId nonce : UInt64) (token : String) (amount : Amount)
    (stablePercent : UInt64) (gasCommission totalCommission : Amount)
    (destinationChain destinationAddress : String)
  /-- A release by the owner. -/
  | fundsOut (recipient token : String) (amount : Amount) (transactionId : UInt64)
    (sourceChain sourceAddress : String)
  /-- A release by the trusted signer. -/
  | transferOut (recipient : String) (transactionId nonce : UInt64) (token : String)
    (amount : Amount)
  /-- A withdrawal of commission. -/
  | withdrawCommission (token : String) (amount : Amount)
  deriving DecidableEq

namespace Movement

/-- The event that announces a movement. -/
def event : Movement → Event
  | .fundsIn user transactionId nonce token amount stablePercent gasCommission totalCommission
      destinationChain destinationAddress =>
    { kind := "bridge_funds_in"
      attributes :=
        [("user", user),
         .number "transaction_id" transactionId,
         .number "nonce" nonce,
         ("token", token),
         .amount "amount" amount,
         .number "stable_commission_percent" stablePercent,
         .amount "gas_commission" gasCommission,
         .amount "total_commission" totalCommission,
         ("destination_chain", destinationChain),
         ("destination_address", destinationAddress)] }
  | .fundsOut recipient token amount transactionId sourceChain sourceAddress =>
    { kind := "bridge_funds_out"
      attributes :=
        [("recipient", recipient),
         ("token", token),
         .amount "amount" amount,
         .number "transaction_id" transactionId,
         ("source_chain", sourceChain),
         ("source_address", sourceAddress)] }
  | .transferOut recipient transactionId nonce token amount =>
    { kind := "transfer_out"
      attributes :=
        [("recipient", recipient),
         .number "transaction_id" transactionId,
         .number "nonce" nonce,
         ("token", token),
         .amount "amount" amount] }
  | .withdrawCommission token amount =>
    { kind := "withdraw_commission"
      attributes :=
        [("token", token),
         .amount "amount" amount] }

end Movement

end TokenCustody
