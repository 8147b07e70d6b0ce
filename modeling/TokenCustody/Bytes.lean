/-!
# Byte strings

Byte strings are lists, so that layouts are concatenations and all functions on them recurse on the
data. `Bytes.bigEndian` and `Bytes.toNat` pass between numbers and digits of base 256, and
`Bytes.ofText` is the UTF-8 encoding of a text.
-/

namespace TokenCustody

/-- A byte string. -/
abbrev Bytes := List UInt8

namespace Bytes

/-- The `width` lowest digits of `n` in base 256, the most significant first. -/
def bigEndian : (width n : Nat) → Bytes
  | 0, _ => []
  | width + 1, n => bigEndian width (n / 256) ++ [UInt8.ofNat n]

/-- The number whose digits in base 256 are `b`, the most significant first. -/
def toNat (b : Bytes) : Nat :=
  b.foldl (fun n x => 256 * n + x.toNat) 0

/-- The UTF-8 encoding of a text. -/
def ofText (s : String) : Bytes :=
  s.toByteArray.data.toList

/-- A byte string as a vector of `n` bytes, if that is its length. -/
def toVector? (n : Nat) (b : Bytes) : Option (Vector UInt8 n) :=
  if h : b.length = n then some ⟨b.toArray, by simpa using h⟩ else none

@[simp]
theorem length_bigEndian (width n : Nat) : (bigEndian width n).length = width := by
  induction width generalizing n with
  | zero => rfl
  | succ width ih => simp [bigEndian, ih]

/-- A text is encoded character by character. -/
theorem ofText_ofList (cs : List Char) :
    ofText (String.ofList cs) = cs.flatMap String.utf8EncodeChar := by
  rw [ofText, String.toByteArray_ofList, List.utf8Encode, List.data_toByteArray]

@[simp]
theorem length_ofText (s : String) : (ofText s).length = s.utf8ByteSize :=
  String.size_toByteArray

theorem ofText_injective {s t : String} (h : ofText s = ofText t) : s = t :=
  String.toByteArray_inj.mp (ByteArray.ext (Array.toList_inj.mp h))

@[simp]
theorem toVector?_toList {n : Nat} (v : Vector UInt8 n) : toVector? n v.toList = some v := by
  simp only [toVector?, Vector.length_toList, ↓reduceDIte, Option.some.injEq]
  exact Vector.toArray_inj.mp (by simp [Vector.toList])

theorem toVector?_eq_some {n : Nat} {b : Bytes} {v : Vector UInt8 n} :
    toVector? n b = some v ↔ v.toList = b := by
  constructor
  · intro h
    simp only [toVector?] at h
    split at h
    · obtain rfl := Option.some.inj h
      rfl
    · cases h
  · rintro rfl
    exact toVector?_toList v

end Bytes

end TokenCustody
