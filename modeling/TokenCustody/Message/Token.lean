import TokenCustody.Json.Codec

/-!
# Messages to token contracts

The two orders that the bridge gives to token contracts, and the balance that it asks them for.
-/

namespace TokenCustody

open ScalarCodec (toScalar)

/-- An order to a token contract. -/
inductive TokenOrder where
  /-- To move tokens of the bridge to somebody. -/
  | transfer (recipient : String) (amount : Amount)
  /-- To move tokens that an owner has allowed the bridge to move. -/
  | transferFrom (owner recipient : String) (amount : Amount)
  deriving DecidableEq

instance : Codec TokenOrder where
  toDocument
    | .transfer recipient amount =>
      .variant "transfer" [("recipient", toScalar recipient), ("amount", toScalar amount)]
    | .transferFrom owner recipient amount =>
      .variant "transfer_from"
        [("owner", toScalar owner),
         ("recipient", toScalar recipient),
         ("amount", toScalar amount)]
  ofDocument?
    | .variant "transfer" r => do
      let r ← r.only? ["recipient", "amount"]
      return .transfer (← r.get? "recipient") (← r.get? "amount")
    | .variant "transfer_from" r => do
      let r ← r.only? ["owner", "recipient", "amount"]
      return .transferFrom (← r.get? "owner") (← r.get? "recipient") (← r.get? "amount")
    | _ => none

/-- The reply of a token contract to the question for a balance. -/
structure Balance where
  amount : Amount
  deriving DecidableEq

instance : RecordCodec Balance where
  names := ["balance"]
  toRecord b := [("balance", toScalar b.amount)]
  ofFields? r := do
    return { amount := ← r.get? "balance" }

/-! ### Reading what has been written -/

instance : LawfulRecordCodec Balance where
  toValue?_toRecord b := by
    rw [Record.toValue?_of_names rfl (by decide)]
    simp [RecordCodec.toRecord, RecordCodec.ofFields?, Record.get?]

end TokenCustody
