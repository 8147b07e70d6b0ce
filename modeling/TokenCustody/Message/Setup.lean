import TokenCustody.Config
import TokenCustody.Json.Codec
import TokenCustody.Pool

/-!
# Setting up, and what is stored

The messages that set the bridge up and change its version, and the documents of the values that it
stores. An owner that is not named is the sender, and a percentage that is not given is the default.
-/

namespace TokenCustody

open ScalarCodec (toScalar)

/-- The message that sets the bridge up. -/
structure Instantiation where
  owner : Option String
  /-- The text of the trusted signer's address. -/
  signer : String
  stablePercent : Option UInt64
  deriving DecidableEq

/-- The message of a change of version. -/
structure Migration where
  deriving DecidableEq

instance : RecordCodec Instantiation where
  names := ["owner", "signer", "stable_commission_percent"]
  toRecord m :=
    [("owner", toScalar m.owner),
     ("signer", toScalar m.signer),
     ("stable_commission_percent", toScalar m.stablePercent)]
  ofFields? r := do
    return {
      owner := ← r.get? "owner"
      signer := ← r.get? "signer"
      stablePercent := ← r.get? "stable_commission_percent" }

instance : RecordCodec Migration where
  names := []
  toRecord _ := []
  ofFields? _ := some {}

instance : RecordCodec Config where
  names := ["owner", "signer", "stable_commission_percent", "paused"]
  toRecord c :=
    [("owner", toScalar c.owner),
     ("signer", toScalar c.signer),
     ("stable_commission_percent", toScalar c.stablePercent),
     ("paused", toScalar c.paused)]
  ofFields? r := do
    return {
      owner := ← r.get? "owner"
      signer := ← r.get? "signer"
      stablePercent := ← r.get? "stable_commission_percent"
      paused := ← r.get? "paused" }

instance : RecordCodec Version where
  names := ["contract", "version"]
  toRecord v :=
    [("contract", toScalar v.contract),
     ("version", toScalar v.version)]
  ofFields? r := do
    return {
      contract := ← r.get? "contract"
      version := ← r.get? "version" }

instance : RecordCodec Pool where
  names := ["total_held", "commission_reserved"]
  toRecord p :=
    [("total_held", toScalar p.held),
     ("commission_reserved", toScalar p.reserved)]
  ofFields? r := do
    return {
      held := ← r.get? "total_held"
      reserved := ← r.get? "commission_reserved" }

/-! ### Reading what has been written -/

instance : LawfulScalarCodec (Option String) where
  ofScalar?_toScalar
    | none => rfl
    | some _ => rfl

instance : LawfulScalarCodec (Option UInt64) where
  ofScalar?_toScalar
    | none => rfl
    | some n => congrArg (Option.map some) (ofScalar?_toScalar n)

instance : LawfulRecordCodec Instantiation where
  toValue?_toRecord m := by
    rw [Record.toValue?_of_names rfl (by decide)]
    simp [RecordCodec.toRecord, RecordCodec.ofFields?, Record.get?, List.lookup_cons]

instance : LawfulRecordCodec Migration := ⟨fun _ => rfl⟩

instance : LawfulRecordCodec Config where
  toValue?_toRecord c := by
    rw [Record.toValue?_of_names rfl (by decide)]
    simp [RecordCodec.toRecord, RecordCodec.ofFields?, Record.get?, List.lookup_cons]

instance : LawfulRecordCodec Version where
  toValue?_toRecord v := by
    rw [Record.toValue?_of_names rfl (by decide)]
    simp [RecordCodec.toRecord, RecordCodec.ofFields?, Record.get?, List.lookup_cons]

instance : LawfulRecordCodec Pool where
  toValue?_toRecord p := by
    rw [Record.toValue?_of_names rfl (by decide)]
    simp [RecordCodec.toRecord, RecordCodec.ofFields?, Record.get?, List.lookup_cons]

end TokenCustody
