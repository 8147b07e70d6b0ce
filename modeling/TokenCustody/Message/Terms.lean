import TokenCustody.Authorization
import TokenCustody.Json.Codec

/-!
# Documents of terms and authorizations

The terms of a deposit or a release have no document of their own: their fields stand among those of
the message or authorization that they belong to.
-/

namespace TokenCustody

open ScalarCodec (toScalar)

instance : RecordCodec DepositTerms where
  names := ["gas_commission", "destination_chain", "destination_address", "deadline", "nonce",
    "transaction_id"]
  toRecord t :=
    [("gas_commission", toScalar t.gasCommission),
     ("destination_chain", toScalar t.destinationChain),
     ("destination_address", toScalar t.destinationAddress),
     ("deadline", toScalar t.deadline),
     ("nonce", toScalar t.nonce),
     ("transaction_id", toScalar t.transactionId)]
  ofFields? r := do
    return {
      gasCommission := ← r.get? "gas_commission"
      destinationChain := ← r.get? "destination_chain"
      destinationAddress := ← r.get? "destination_address"
      deadline := ← r.get? "deadline"
      nonce := ← r.get? "nonce"
      transactionId := ← r.get? "transaction_id" }

instance : RecordCodec DepositAuthorization where
  names := ["user", "bridge", "chain_id", "token", "amount"] ++ RecordCodec.names DepositTerms
  toRecord a :=
    [("user", toScalar a.user),
     ("bridge", toScalar a.bridge),
     ("chain_id", toScalar a.chainId),
     ("token", toScalar a.token),
     ("amount", toScalar a.amount)] ++ RecordCodec.toRecord a.terms
  ofFields? r := do
    return {
      user := ← r.get? "user"
      bridge := ← r.get? "bridge"
      chainId := ← r.get? "chain_id"
      token := ← r.get? "token"
      amount := ← r.get? "amount"
      terms := ← RecordCodec.ofFields? r }

instance : RecordCodec ReleaseTerms where
  names := ["token", "recipient", "amount", "total_commission", "deadline", "nonce",
    "transaction_id"]
  toRecord t :=
    [("token", toScalar t.token),
     ("recipient", toScalar t.recipient),
     ("amount", toScalar t.amount),
     ("total_commission", toScalar t.totalCommission),
     ("deadline", toScalar t.deadline),
     ("nonce", toScalar t.nonce),
     ("transaction_id", toScalar t.transactionId)]
  ofFields? r := do
    return {
      token := ← r.get? "token"
      recipient := ← r.get? "recipient"
      amount := ← r.get? "amount"
      totalCommission := ← r.get? "total_commission"
      deadline := ← r.get? "deadline"
      nonce := ← r.get? "nonce"
      transactionId := ← r.get? "transaction_id" }

instance : RecordCodec ReleaseAuthorization where
  names := ["bridge", "chain_id"] ++ RecordCodec.names ReleaseTerms
  toRecord a :=
    [("bridge", toScalar a.bridge),
     ("chain_id", toScalar a.chainId)] ++ RecordCodec.toRecord a.terms
  ofFields? r := do
    return {
      bridge := ← r.get? "bridge"
      chainId := ← r.get? "chain_id"
      terms := ← RecordCodec.ofFields? r }

/-! ### Reading what has been written -/

instance : LawfulRecordCodec DepositAuthorization where
  toValue?_toRecord a := by
    rw [Record.toValue?_of_names rfl (by decide)]
    simp [RecordCodec.toRecord, RecordCodec.ofFields?, Record.get?, List.lookup_cons]

instance : LawfulRecordCodec ReleaseTerms where
  toValue?_toRecord t := by
    rw [Record.toValue?_of_names rfl (by decide)]
    simp [RecordCodec.toRecord, RecordCodec.ofFields?, Record.get?, List.lookup_cons]

instance : LawfulRecordCodec ReleaseAuthorization where
  toValue?_toRecord a := by
    rw [Record.toValue?_of_names rfl (by decide)]
    simp [RecordCodec.toRecord, RecordCodec.ofFields?, Record.get?, List.lookup_cons]

end TokenCustody
