import TokenCustody.Message.Terms

/-!
# Questions and answers

The messages of queries, and what they are answered with. The answers about digests let a signer ask
the bridge itself for what is to be signed.
-/

namespace TokenCustody

open ScalarCodec (toScalar)

/-- The message of a query. -/
inductive Question where
  /-- The commission that a deposit would pay. -/
  | totalCommission (amount fixed : Amount)
  | stableCommissionPercent
  | commissionPool (token : String)
  | chainId
  | config
  | pool (token : String)
  | nonceUsed (nonce : UInt64)
  | pendingOwner
  /-- What is to be signed for a deposit. -/
  | bridgeInDigest (user token : String) (amount : Amount) (terms : DepositTerms)
  /-- What is to be signed for a release. -/
  | transferOutDigest (terms : ReleaseTerms)
  deriving DecidableEq

/-- The settings of the bridge, with the signer as text. -/
structure ConfigAnswer where
  owner : String
  signer : String
  stablePercent : UInt64
  paused : Bool
  deriving DecidableEq

/-- The amounts of a token, and what the token contract says that the bridge has. -/
structure PoolAnswer where
  token : String
  held : Amount
  reserved : Amount
  bridgeable : Amount
  tokenBalance : Amount
  deriving DecidableEq

/-- Whether a nonce has been consumed. -/
structure NonceAnswer where
  nonce : UInt64
  used : Bool
  deriving DecidableEq

/-- The account that has been proposed as owner. -/
structure PendingOwnerAnswer where
  newOwner : String
  deriving DecidableEq

/-- What is to be signed: the hash of the payload and the digest made of it. -/
structure DigestAnswer where
  payloadHash : Bytes
  digest : Bytes
  deriving DecidableEq

/-- The answer to a question. -/
inductive Answer where
  | totalCommission (commission : Amount)
  | stableCommissionPercent (percent hundred : UInt64)
  | commissionPool (token : String) (reserved : Amount)
  | chainId (id : String)
  | config (answer : ConfigAnswer)
  | pool (answer : PoolAnswer)
  | nonceUsed (answer : NonceAnswer)
  | pendingOwner (answer : Option PendingOwnerAnswer)
  | digest (answer : DigestAnswer)
  deriving DecidableEq

instance : RecordCodec ConfigAnswer where
  names := ["owner", "signer", "stable_commission_percent", "paused"]
  toRecord a :=
    [("owner", toScalar a.owner),
     ("signer", toScalar a.signer),
     ("stable_commission_percent", toScalar a.stablePercent),
     ("paused", toScalar a.paused)]
  ofFields? r := do
    return {
      owner := ← r.get? "owner"
      signer := ← r.get? "signer"
      stablePercent := ← r.get? "stable_commission_percent"
      paused := ← r.get? "paused" }

instance : RecordCodec PoolAnswer where
  names := ["token", "total_held", "commission_reserved", "bridgeable", "token_balance"]
  toRecord a :=
    [("token", toScalar a.token),
     ("total_held", toScalar a.held),
     ("commission_reserved", toScalar a.reserved),
     ("bridgeable", toScalar a.bridgeable),
     ("token_balance", toScalar a.tokenBalance)]
  ofFields? r := do
    return {
      token := ← r.get? "token"
      held := ← r.get? "total_held"
      reserved := ← r.get? "commission_reserved"
      bridgeable := ← r.get? "bridgeable"
      tokenBalance := ← r.get? "token_balance" }

instance : RecordCodec NonceAnswer where
  names := ["nonce", "used"]
  toRecord a :=
    [("nonce", toScalar a.nonce),
     ("used", toScalar a.used)]
  ofFields? r := do
    return {
      nonce := ← r.get? "nonce"
      used := ← r.get? "used" }

instance : RecordCodec PendingOwnerAnswer where
  names := ["new_owner"]
  toRecord a := [("new_owner", toScalar a.newOwner)]
  ofFields? r := do
    return { newOwner := ← r.get? "new_owner" }

instance : RecordCodec DigestAnswer where
  names := ["payload_hash", "digest"]
  toRecord a :=
    [("payload_hash", toScalar a.payloadHash),
     ("digest", toScalar a.digest)]
  ofFields? r := do
    return {
      payloadHash := ← r.get? "payload_hash"
      digest := ← r.get? "digest" }

instance : Codec Question where
  toDocument
    | .totalCommission amount fixed =>
      .variant "total_commission"
        [("amount", toScalar amount), ("fixed_commission", toScalar fixed)]
    | .stableCommissionPercent => .variant "stable_commission_percent" []
    | .commissionPool token => .variant "commission_pool" [("token", toScalar token)]
    | .chainId => .variant "chain_id" []
    | .config => .variant "config" []
    | .pool token => .variant "pool" [("token", toScalar token)]
    | .nonceUsed nonce => .variant "nonce_used" [("nonce", toScalar nonce)]
    | .pendingOwner => .variant "pending_owner" []
    | .bridgeInDigest user token amount terms =>
      .variant "bridge_in_digest"
        ([("user", toScalar user),
          ("token", toScalar token),
          ("amount", toScalar amount)] ++ RecordCodec.toRecord terms)
    | .transferOutDigest terms => .variant "transfer_out_digest" (RecordCodec.toRecord terms)
  ofDocument?
    | .variant "total_commission" r => do
      let r ← r.only? ["amount", "fixed_commission"]
      return .totalCommission (← r.get? "amount") (← r.get? "fixed_commission")
    | .variant "stable_commission_percent" [] => some .stableCommissionPercent
    | .variant "commission_pool" r => do
      let r ← r.only? ["token"]
      return .commissionPool (← r.get? "token")
    | .variant "chain_id" [] => some .chainId
    | .variant "config" [] => some .config
    | .variant "pool" r => do
      let r ← r.only? ["token"]
      return .pool (← r.get? "token")
    | .variant "nonce_used" r => do
      let r ← r.only? ["nonce"]
      return .nonceUsed (← r.get? "nonce")
    | .variant "pending_owner" [] => some .pendingOwner
    | .variant "bridge_in_digest" r => do
      let r ← r.only? (["user", "token", "amount"] ++ RecordCodec.names DepositTerms)
      return .bridgeInDigest (← r.get? "user") (← r.get? "token") (← r.get? "amount")
        (← RecordCodec.ofFields? r)
    | .variant "transfer_out_digest" r => r.toValue?.map .transferOutDigest
    | _ => none

namespace Answer

/-- The JSON text of an answer. -/
def text : Answer → String
  | .totalCommission commission =>
    (Document.record [("total_commission", toScalar commission)]).render
  | .stableCommissionPercent percent hundred =>
    (Document.record
      [("stable_commission_percent", toScalar percent),
       ("hundred_percent", toScalar hundred)]).render
  | .commissionPool token reserved =>
    (Document.record [("token", toScalar token), ("amount", toScalar reserved)]).render
  | .chainId id => (Document.record [("chain_id", toScalar id)]).render
  | .config answer => writeJson answer
  | .pool answer => writeJson answer
  | .nonceUsed answer => writeJson answer
  | .pendingOwner answer => writeJson answer
  | .digest answer => writeJson answer

end Answer

/-! ### Reading what has been written -/

instance : LawfulRecordCodec ConfigAnswer where
  toValue?_toRecord a := by
    rw [Record.toValue?_of_names rfl (by decide)]
    simp [RecordCodec.toRecord, RecordCodec.ofFields?, Record.get?, List.lookup_cons]

instance : LawfulRecordCodec PoolAnswer where
  toValue?_toRecord a := by
    rw [Record.toValue?_of_names rfl (by decide)]
    simp [RecordCodec.toRecord, RecordCodec.ofFields?, Record.get?, List.lookup_cons]

instance : LawfulRecordCodec NonceAnswer where
  toValue?_toRecord a := by
    rw [Record.toValue?_of_names rfl (by decide)]
    simp [RecordCodec.toRecord, RecordCodec.ofFields?, Record.get?, List.lookup_cons]

instance : LawfulRecordCodec PendingOwnerAnswer where
  toValue?_toRecord a := by
    rw [Record.toValue?_of_names rfl (by decide)]
    simp [RecordCodec.toRecord, RecordCodec.ofFields?, Record.get?]

instance : LawfulRecordCodec DigestAnswer where
  toValue?_toRecord a := by
    rw [Record.toValue?_of_names rfl (by decide)]
    simp [RecordCodec.toRecord, RecordCodec.ofFields?, Record.get?, List.lookup_cons]

instance : LawfulCodec Question where
  ofDocument?_toDocument q := by
    cases q with
    | bridgeInDigest user token amount terms =>
      -- the terms stand among fields of the question, so they have to be read one by one
      simp [Codec.toDocument, Codec.ofDocument?, Record.only?, Record.get?, List.lookup_cons,
        RecordCodec.toRecord, RecordCodec.ofFields?, RecordCodec.names]
    | _ =>
      simp [Codec.toDocument, Codec.ofDocument?, Record.only?, Record.get?, List.lookup_cons]

end TokenCustody
