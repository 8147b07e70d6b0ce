import TokenCustody.Amount
import TokenCustody.Json.Document
import TokenCustody.Text.Base64

/-!
# Codecs

How values are written as JSON documents and read back. A field holds a scalar: a flag, a number
below `2 ^ 64`, an amount as decimal text, a text, bytes as base64 text, or nothing at all.
`Record.toValue?` reads a record strictly and refuses unknown and repeated names; the order of the
fields is free, and a missing field is read as `null`, which only an optional field accepts.
-/

namespace TokenCustody

/-- Values that are written as scalars. -/
class ScalarCodec (α : Type) where
  /-- The scalar of a value. -/
  toScalar : α → Scalar
  /-- The value of a scalar, if it is of the right kind. -/
  ofScalar? : Scalar → Option α

/-- Values that are written as records. -/
class RecordCodec (α : Type) where
  /-- The names of the fields. -/
  names : List String
  /-- The fields of a value, in the order of writing. -/
  toRecord : α → Record
  /-- The value of the fields of a record, which may have other fields too. -/
  ofFields? : Record → Option α

/-- Values that are written as documents. -/
class Codec (α : Type) where
  /-- The document of a value. -/
  toDocument : α → Document
  /-- The value of a document, if it has the right shape. -/
  ofDocument? : Document → Option α

namespace ScalarCodec

instance : ScalarCodec Bool where
  toScalar := .bool
  ofScalar?
    | .bool b => some b
    | _ => none

instance : ScalarCodec UInt64 where
  toScalar n := .number n.toNat
  ofScalar?
    | .number n => if n < UInt64.size then some (UInt64.ofNat n) else none
    | _ => none

instance : ScalarCodec String where
  toScalar := .text
  ofScalar?
    | .text s => some s
    | _ => none

instance : ScalarCodec Amount where
  toScalar a := .text a.text
  ofScalar?
    | .text s => (Decimal.read? s).bind Amount.ofNat?
    | _ => none

instance : ScalarCodec Bytes where
  toScalar b := .text (Base64.encode b)
  ofScalar?
    | .text s => Base64.decode? s
    | _ => none

instance {α : Type} [ScalarCodec α] : ScalarCodec (Option α) where
  toScalar
    | none => .null
    | some a => toScalar a
  ofScalar?
    | .null => some none
    | s => (ofScalar? s).map some

end ScalarCodec

namespace Record

/-- The value of the field of a given name. -/
def get? {α : Type} [ScalarCodec α] (r : Record) (name : String) : Option α :=
  ScalarCodec.ofScalar? ((r.lookup name).getD .null)

/-- The record itself, if its names are distinct and all among the given ones. -/
def only? (r : Record) (names : List String) : Option Record :=
  let present := r.map Prod.fst
  if present.Nodup ∧ ∀ name ∈ present, name ∈ names then some r else none

/-- The value of a record that has no unknown and no repeated names. -/
def toValue? {α : Type} [RecordCodec α] (r : Record) : Option α :=
  (r.only? (RecordCodec.names α)).bind RecordCodec.ofFields?

end Record

namespace Codec

/-- Scalars as documents. -/
@[reducible]
def ofScalarCodec (α : Type) [ScalarCodec α] : Codec α where
  toDocument a := .scalar (ScalarCodec.toScalar a)
  ofDocument?
    | .scalar s => ScalarCodec.ofScalar? s
    | _ => none

instance : Codec Bool := ofScalarCodec Bool

instance : Codec String := ofScalarCodec String

instance {α : Type} [RecordCodec α] : Codec α where
  toDocument a := .record (RecordCodec.toRecord a)
  ofDocument?
    | .record r => r.toValue?
    | _ => none

instance {α : Type} [RecordCodec α] : Codec (Option α) where
  toDocument
    | none => .scalar .null
    | some a => .record (RecordCodec.toRecord a)
  ofDocument?
    | .scalar .null => some none
    | .record r => r.toValue?.map some
    | _ => none

end Codec

/-- The JSON text of a value. -/
def writeJson {α : Type} [Codec α] (a : α) : String :=
  (Codec.toDocument a).render

/-- The value that a JSON text stands for. -/
def readJson? {α : Type} [Codec α] (s : String) : Option α :=
  (Document.parse? s).bind Codec.ofDocument?

/-! ### Reading what has been written -/

/-- Values that are read back from their scalars. -/
class LawfulScalarCodec (α : Type) [ScalarCodec α] : Prop where
  ofScalar?_toScalar : ∀ a : α, ScalarCodec.ofScalar? (ScalarCodec.toScalar a) = some a

/-- Values that are read back from their records. -/
class LawfulRecordCodec (α : Type) [RecordCodec α] : Prop where
  toValue?_toRecord : ∀ a : α, (RecordCodec.toRecord a).toValue? = some a

/-- Values that are read back from their documents. -/
class LawfulCodec (α : Type) [Codec α] : Prop where
  ofDocument?_toDocument : ∀ a : α, Codec.ofDocument? (Codec.toDocument a) = some a

export LawfulScalarCodec (ofScalar?_toScalar)
export LawfulRecordCodec (toValue?_toRecord)
export LawfulCodec (ofDocument?_toDocument)

attribute [simp] ofScalar?_toScalar toValue?_toRecord ofDocument?_toDocument

instance : LawfulScalarCodec Bool := ⟨fun _ => rfl⟩

instance : LawfulScalarCodec String := ⟨fun _ => rfl⟩

instance : LawfulScalarCodec UInt64 where
  ofScalar?_toScalar n := (if_pos n.toNat_lt).trans (congrArg some UInt64.ofNat_toNat)

instance : LawfulScalarCodec Amount where
  ofScalar?_toScalar a := by
    simp [ScalarCodec.toScalar, ScalarCodec.ofScalar?, Amount.text]

instance : LawfulScalarCodec Bytes := ⟨Base64.decode?_encode⟩

instance : LawfulCodec Bool := ⟨ofScalar?_toScalar⟩

instance : LawfulCodec String := ⟨ofScalar?_toScalar⟩

instance {α : Type} [RecordCodec α] [LawfulRecordCodec α] : LawfulCodec α := ⟨toValue?_toRecord⟩

instance {α : Type} [RecordCodec α] [LawfulRecordCodec α] : LawfulCodec (Option α) where
  ofDocument?_toDocument
    | none => rfl
    | some a => congrArg (Option.map some) (toValue?_toRecord a)

/-- **A value is read back from its JSON text.** -/
@[simp]
theorem readJson?_writeJson {α : Type} [Codec α] [LawfulCodec α] (a : α) :
    readJson? (writeJson a) = some a := by
  simp [readJson?, writeJson]

namespace Record

/-- A record that has the names of all fields, each once, is read by its fields. -/
theorem toValue?_of_names {α : Type} [RecordCodec α] {r : Record}
    (h : r.map Prod.fst = RecordCodec.names α) (distinct : (RecordCodec.names α).Nodup) :
    r.toValue? = (RecordCodec.ofFields? r : Option α) := by
  rw [toValue?, only?, h, if_pos ⟨distinct, fun _ => id⟩, Option.bind_some]

end Record

end TokenCustody
