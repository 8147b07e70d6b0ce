import TokenCustody.Message.Terms

/-!
# Commands

The messages of calls that change the bridge. A deposit comes in two ways: a user calls the bridge,
which then pulls the tokens (`Command.bridgeIn`); or a token contract has moved the tokens already
and calls the bridge with a message of the user's (`Command.receive` with a `Hook`).
-/

namespace TokenCustody

open ScalarCodec (toScalar)

/-- The terms of a deposit, signed by the trusted signer. -/
structure DepositConsent where
  terms : DepositTerms
  signature : Bytes
  deriving DecidableEq

/-- A deposit that is to be pulled from the sender. -/
structure DepositRequest where
  token : String
  amount : Amount
  consent : DepositConsent
  deriving DecidableEq

/-- What a token contract reports about tokens that it has moved to the bridge. -/
structure TokenNotice where
  /-- The account that the tokens come from. -/
  sender : String
  amount : Amount
  /-- The text of the message that this account sends along. -/
  message : Bytes
  deriving DecidableEq

/-- The message that comes along with moved tokens. -/
inductive Hook where
  /-- The tokens are a deposit. -/
  | bridgeIn (consent : DepositConsent)
  deriving DecidableEq

/-- A release on the authority of the trusted signer. -/
structure ReleaseRequest where
  terms : ReleaseTerms
  signature : Bytes
  deriving DecidableEq

/-- A release on the authority of the owner. -/
structure Settlement where
  token : String
  recipient : String
  amount : Amount
  /-- The number of the transfer in the owner's records. -/
  transactionId : UInt64
  /-- The network that the transfer comes from. -/
  sourceChain : String
  sourceAddress : String
  deriving DecidableEq

/-- The message of a call. -/
inductive Command where
  | bridgeIn (request : DepositRequest)
  | receive (notice : TokenNotice)
  | transferOut (request : ReleaseRequest)
  | bridgeOut (settlement : Settlement)
  | withdrawCommission (token : String) (amount : Amount)
  | setStableCommissionPercent (percent : UInt64)
  | pause
  | unpause
  | proposeOwner (newOwner : String)
  | acceptOwnership
  | cancelOwnershipProposal
  deriving DecidableEq

instance : RecordCodec DepositConsent where
  names := RecordCodec.names DepositTerms ++ ["signature"]
  toRecord c := RecordCodec.toRecord c.terms ++ [("signature", toScalar c.signature)]
  ofFields? r := do
    return {
      terms := ← RecordCodec.ofFields? r
      signature := ← r.get? "signature" }

instance : RecordCodec DepositRequest where
  names := ["token", "amount"] ++ RecordCodec.names DepositConsent
  toRecord q :=
    [("token", toScalar q.token),
     ("amount", toScalar q.amount)] ++ RecordCodec.toRecord q.consent
  ofFields? r := do
    return {
      token := ← r.get? "token"
      amount := ← r.get? "amount"
      consent := ← RecordCodec.ofFields? r }

instance : RecordCodec TokenNotice where
  names := ["sender", "amount", "msg"]
  toRecord n :=
    [("sender", toScalar n.sender),
     ("amount", toScalar n.amount),
     ("msg", toScalar n.message)]
  ofFields? r := do
    return {
      sender := ← r.get? "sender"
      amount := ← r.get? "amount"
      message := ← r.get? "msg" }

instance : RecordCodec ReleaseRequest where
  names := RecordCodec.names ReleaseTerms ++ ["signature"]
  toRecord q := RecordCodec.toRecord q.terms ++ [("signature", toScalar q.signature)]
  ofFields? r := do
    return {
      terms := ← RecordCodec.ofFields? r
      signature := ← r.get? "signature" }

instance : RecordCodec Settlement where
  names := ["token", "recipient", "amount", "transaction_id", "source_chain", "source_address"]
  toRecord q :=
    [("token", toScalar q.token),
     ("recipient", toScalar q.recipient),
     ("amount", toScalar q.amount),
     ("transaction_id", toScalar q.transactionId),
     ("source_chain", toScalar q.sourceChain),
     ("source_address", toScalar q.sourceAddress)]
  ofFields? r := do
    return {
      token := ← r.get? "token"
      recipient := ← r.get? "recipient"
      amount := ← r.get? "amount"
      transactionId := ← r.get? "transaction_id"
      sourceChain := ← r.get? "source_chain"
      sourceAddress := ← r.get? "source_address" }

instance : Codec Hook where
  toDocument
    | .bridgeIn consent => .variant "bridge_in" (RecordCodec.toRecord consent)
  ofDocument?
    | .variant "bridge_in" r => r.toValue?.map .bridgeIn
    | _ => none

instance : Codec Command where
  toDocument
    | .bridgeIn request => .variant "bridge_in" (RecordCodec.toRecord request)
    | .receive notice => .variant "receive" (RecordCodec.toRecord notice)
    | .transferOut request => .variant "transfer_out" (RecordCodec.toRecord request)
    | .bridgeOut settlement => .variant "bridge_out" (RecordCodec.toRecord settlement)
    | .withdrawCommission token amount =>
      .variant "withdraw_commission" [("token", toScalar token), ("amount", toScalar amount)]
    | .setStableCommissionPercent percent =>
      .variant "set_stable_commission_percent" [("percent", toScalar percent)]
    | .pause => .variant "pause" []
    | .unpause => .variant "unpause" []
    | .proposeOwner newOwner => .variant "propose_owner" [("new_owner", toScalar newOwner)]
    | .acceptOwnership => .variant "accept_ownership" []
    | .cancelOwnershipProposal => .variant "cancel_ownership_proposal" []
  ofDocument?
    | .variant "bridge_in" r => r.toValue?.map .bridgeIn
    | .variant "receive" r => r.toValue?.map .receive
    | .variant "transfer_out" r => r.toValue?.map .transferOut
    | .variant "bridge_out" r => r.toValue?.map .bridgeOut
    | .variant "withdraw_commission" r => do
      let r ← r.only? ["token", "amount"]
      return .withdrawCommission (← r.get? "token") (← r.get? "amount")
    | .variant "set_stable_commission_percent" r => do
      let r ← r.only? ["percent"]
      return .setStableCommissionPercent (← r.get? "percent")
    | .variant "pause" [] => some .pause
    | .variant "unpause" [] => some .unpause
    | .variant "propose_owner" r => do
      let r ← r.only? ["new_owner"]
      return .proposeOwner (← r.get? "new_owner")
    | .variant "accept_ownership" [] => some .acceptOwnership
    | .variant "cancel_ownership_proposal" [] => some .cancelOwnershipProposal
    | _ => none

/-! ### Reading what has been written -/

instance : LawfulRecordCodec DepositConsent where
  toValue?_toRecord c := by
    rw [Record.toValue?_of_names rfl (by decide)]
    simp [RecordCodec.toRecord, RecordCodec.ofFields?, Record.get?, List.lookup_cons]

instance : LawfulRecordCodec DepositRequest where
  toValue?_toRecord q := by
    rw [Record.toValue?_of_names rfl (by decide)]
    simp [RecordCodec.toRecord, RecordCodec.ofFields?, Record.get?, List.lookup_cons]

instance : LawfulRecordCodec TokenNotice where
  toValue?_toRecord n := by
    rw [Record.toValue?_of_names rfl (by decide)]
    simp [RecordCodec.toRecord, RecordCodec.ofFields?, Record.get?, List.lookup_cons]

instance : LawfulRecordCodec ReleaseRequest where
  toValue?_toRecord q := by
    rw [Record.toValue?_of_names rfl (by decide)]
    simp [RecordCodec.toRecord, RecordCodec.ofFields?, Record.get?, List.lookup_cons]

instance : LawfulRecordCodec Settlement where
  toValue?_toRecord q := by
    rw [Record.toValue?_of_names rfl (by decide)]
    simp [RecordCodec.toRecord, RecordCodec.ofFields?, Record.get?, List.lookup_cons]

instance : LawfulCodec Hook where
  ofDocument?_toDocument h := by
    cases h
    simp [Codec.toDocument, Codec.ofDocument?]

instance : LawfulCodec Command where
  ofDocument?_toDocument c := by
    -- the commands with a few scalars of their own have no record type
    cases c <;>
      simp [Codec.toDocument, Codec.ofDocument?, Record.only?, Record.get?, List.lookup_cons]

end TokenCustody
