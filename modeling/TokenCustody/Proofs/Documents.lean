import Mathlib.Logic.Function.Defs
import TokenCustody.Message.Command
import TokenCustody.Message.Question
import TokenCustody.Message.Token
import TokenCustody.Store.Basic

/-!
# Documents are written without loss

Every schema is the name of a format, `Schema.format`: a type of values, and how they are written
and read. Whatever a value is made of, such as texts with quotes, backslashes and control characters
in them, byte strings of any length, or the greatest numbers, the reader of its schema accepts the
document and gives the value back; so no two values are written alike (`Schema.writeJson_lossless`).

The reasons lie beside the codecs, one for each level of a document: escapes in
`TokenCustody.Json.Quoted`, lexemes and their order in `TokenCustody.Json.Lexeme` and
`TokenCustody.Json.Document`, amounts and bytes in `TokenCustody.Text.Decimal` and
`TokenCustody.Text.Base64`, and the fields of each type in `TokenCustody.Message`. Here they are
brought together over all schemas.
-/

namespace TokenCustody

/-- A type of values, and how they are written and read. -/
structure Format where
  Value : Type
  [codec : Codec Value]

attribute [instance] Format.codec

namespace Schema

/-- The format of the documents that match a schema. -/
abbrev format : Schema → Format
  | .instantiation => ⟨Instantiation⟩
  | .migration => ⟨Migration⟩
  | .command => ⟨Command⟩
  | .hook => ⟨Hook⟩
  | .question => ⟨Question⟩
  | .poolAnswer => ⟨PoolAnswer⟩
  | .configAnswer => ⟨ConfigAnswer⟩
  | .nonceAnswer => ⟨NonceAnswer⟩
  | .digestAnswer => ⟨DigestAnswer⟩
  | .pendingOwnerAnswer => ⟨Option PendingOwnerAnswer⟩
  | .config => ⟨Config⟩
  | .pool => ⟨Pool⟩
  | .depositAuthorization => ⟨DepositAuthorization⟩
  | .releaseAuthorization => ⟨ReleaseAuthorization⟩
  | .mark => ⟨Bool⟩
  | .account => ⟨String⟩
  | .version => ⟨Version⟩
  | .balance => ⟨Balance⟩

instance (schema : Schema) : LawfulCodec schema.format.Value := by
  cases schema <;> infer_instance

/-- **Documents are written without loss.** The document of a value, whatever its schema is, is
accepted by the reader of this schema and read as the value itself; and two values of one schema do
not have the same document. -/
theorem writeJson_lossless (schema : Schema) :
    (∀ v : schema.format.Value, schema.read (writeJson v) = .ok v) ∧
      Function.Injective (writeJson : schema.format.Value → String) := by
  have hread (v : schema.format.Value) : schema.read (writeJson v) = .ok v :=
    schema.read_writeJson v
  refine ⟨hread, fun v w hvw => ?_⟩
  have hsame : (Except.ok v : Except HostError schema.format.Value) = .ok w := by
    rw [← hread v, hvw, hread w]
  exact Except.ok.inj hsame

end Schema

end TokenCustody
