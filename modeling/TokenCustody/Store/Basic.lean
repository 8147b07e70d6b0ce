import Std.Data.ExtTreeMap
import TokenCustody.Config
import TokenCustody.Failure
import TokenCustody.Json.Codec
import TokenCustody.Message.Setup
import TokenCustody.Store.Key

/-!
# The store

All that the bridge remembers: texts under byte strings, in the order of the keys. Two stores with
the same entries are equal. A `Slot` is a place for values of one type; what it holds is written and
read as JSON. The bridge reaches its store through slots only, but a store may hold anything.
-/

namespace TokenCustody

/-- Texts under byte strings. -/
abbrev Store := Std.ExtTreeMap Bytes String compare

/-- A place in the store for values of type `α`. -/
structure Slot (α : Type) where
  key : Key
  schema : Schema

namespace Slot

/-- The settings. -/
def config : Slot Config := ⟨.config, .config⟩

/-- The account that has been proposed as owner. -/
def pendingOwner : Slot String := ⟨.pendingOwner, .account⟩

/-- The version of the contract that has written the store. -/
def version : Slot Version := ⟨.version, .version⟩

/-- The pool of a token. -/
def pool (token : String) : Slot Pool := ⟨.pool token, .pool⟩

/-- The mark of a nonce: it is true once the nonce has been consumed. -/
def nonce (n : UInt64) : Slot Bool := ⟨.nonce n, .mark⟩

end Slot

/-- The value of a text that is expected to match a schema. -/
def Schema.read {α : Type} [Codec α] (schema : Schema) (text : String) : Except HostError α :=
  match readJson? text with
  | some a => .ok a
  | none => .error (.malformed schema)

@[simp]
theorem Schema.read_writeJson {α : Type} [Codec α] [LawfulCodec α] (schema : Schema) (a : α) :
    schema.read (writeJson a) = .ok a := by
  simp [read]

namespace Store

/-- The value in a slot, if there is one. -/
def load? {α : Type} [Codec α] (s : Store) (slot : Slot α) : Except HostError (Option α) :=
  match s[slot.key.bytes]? with
  | some text => (slot.schema.read text).map some
  | none => .ok none

/-- The store with a value put into a slot. -/
def save {α : Type} [Codec α] (s : Store) (slot : Slot α) (a : α) : Store :=
  s.insert slot.key.bytes (writeJson a)

/-- The store with nothing in a slot. -/
def remove {α : Type} (s : Store) (slot : Slot α) : Store :=
  s.erase slot.key.bytes

/-- The settings, which must be there. -/
def config (s : Store) : Except HostError Config := do
  match ← s.load? .config with
  | some c => return c
  | none => throw .noConfig

/-- The pool of a token; that of an unknown token is empty. -/
def pool (s : Store) (token : String) : Except HostError Pool :=
  (s.load? (.pool token)).map (·.getD .empty)

/-- Whether a nonce has been consumed. -/
def isUsed (s : Store) (nonce : UInt64) : Except HostError Bool :=
  (s.load? (.nonce nonce)).map (·.getD false)

/-- **What has been saved is loaded again.** -/
@[simp]
theorem load?_save {α : Type} [Codec α] [LawfulCodec α] (s : Store) (slot : Slot α) (a : α) :
    (s.save slot a).load? slot = .ok (some a) := by
  simp [load?, save, Except.map]

@[simp]
theorem load?_remove {α : Type} [Codec α] (s : Store) (slot : Slot α) :
    (s.remove slot).load? slot = .ok none := by
  simp [load?, remove]

/-- Saving under another key changes nothing. -/
theorem load?_save_of_ne {α β : Type} [Codec α] [Codec β] (s : Store) {slot : Slot α}
    {other : Slot β} (h : other.key.bytes ≠ slot.key.bytes) (b : β) :
    (s.save other b).load? slot = s.load? slot := by
  simp [load?, save, Std.ExtTreeMap.getElem?_insert, h]

/-- Removing under another key changes nothing. -/
theorem load?_remove_of_ne {α β : Type} [Codec α] (s : Store) {slot : Slot α} {other : Slot β}
    (h : other.key.bytes ≠ slot.key.bytes) : (s.remove other).load? slot = s.load? slot := by
  simp [load?, remove, Std.ExtTreeMap.getElem?_erase, h]

end Store

end TokenCustody
