import TokenCustody.Hash.Keccak

/-!
# Words and digests

Everything that a signer commits to is a sequence of words of 32 bytes: a number is written
big-endian and padded on the left, a text is represented by its hash. What is signed is not the hash
of such a sequence itself but its *personal digest*, in which a fixed phrase stands in front, so
that a signed message can never be mistaken for a transaction.
-/

namespace TokenCustody

namespace Word

/-- The word of a number, big-endian and padded on the left. -/
def ofNat (n : Nat) : Word :=
  ⟨(Bytes.bigEndian 32 n).toArray, by simp⟩

/-- The word that stands for a text: the hash of its UTF-8 encoding. -/
def ofText (s : String) : Word :=
  keccak256 (Bytes.ofText s)

/-- The number that a word stands for. -/
def toNat (w : Word) : Nat :=
  Bytes.toNat w.toList

/-- The phrase in front of every signed hash. -/
def personalPhrase : Bytes :=
  Bytes.ofText "\x19Ethereum Signed Message:\n32"

/-- The digest that is signed for a hash. -/
def personalDigest (hash : Word) : Word :=
  keccak256 (personalPhrase ++ hash.toList)

@[simp]
theorem toList_ofNat (n : Nat) : (ofNat n).toList = Bytes.bigEndian 32 n := by
  simp [ofNat, Vector.toList]

end Word

end TokenCustody
