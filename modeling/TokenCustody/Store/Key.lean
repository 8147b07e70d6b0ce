import TokenCustody.Bytes

/-!
# Storage keys

The bridge stores its values under byte strings. Single values stand under their plain names; the
pools and the nonces stand in namespaces, each key of which starts with the length of the name in
two bytes and the name. Plain names start with a letter and so never with such a length.

`Key.behind?` tells the keys of a namespace from all others.
-/

namespace TokenCustody

/-- What a stored value is about. -/
inductive Key where
  | config
  | pendingOwner
  | version
  /-- The pool of a token. -/
  | pool (token : String)
  /-- The mark of a consumed nonce. -/
  | nonce (n : UInt64)
  deriving DecidableEq

namespace Key

/-- What all keys of a namespace start with. -/
def header (name : String) : Bytes :=
  Bytes.bigEndian 2 (Bytes.ofText name).length ++ Bytes.ofText name

/-- What the keys of all pools start with. -/
def pools : Bytes := header "pools"

/-- What the keys of all nonces start with. -/
def nonces : Bytes := header "used_nonces"

/-- The storage key of a value. -/
def bytes : Key → Bytes
  | .config => Bytes.ofText "config"
  | .pendingOwner => Bytes.ofText "pending_owner"
  | .version => Bytes.ofText "contract_info"
  | .pool token => pools ++ Bytes.ofText token
  | .nonce n => nonces ++ Bytes.bigEndian 8 n.toNat

/-- What stands in a key behind the start of a namespace, if the key belongs to it. -/
def behind? (start b : Bytes) : Option Bytes :=
  let rest := b.drop start.length
  if b = start ++ rest then some rest else none

@[simp]
theorem behind?_append (start rest : Bytes) : behind? start (start ++ rest) = some rest := by
  simp [behind?]

end Key

end TokenCustody
