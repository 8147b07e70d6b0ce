import TokenCustody.Text.Lowercase
import TokenCustody.Text.Utf8

/-!
# Account addresses

The network gives accounts and contracts texts for addresses. A text is accepted if its length in
UTF-8 bytes lies between `Address.minLength` and `Address.maxLength` and it is in normal form: no
zero character, and no letter that has a lower-case form.

The network brings a text into normal form by itself and keeps `Address.maxLength` bytes of it. A
lower-case form may be longer than the text, so that a character is cut; the text is refused in any
case, but then it is the cut that is reported.
-/

namespace TokenCustody

namespace Address

/-- The least number of bytes of an address. -/
def minLength : Nat := 3

/-- The greatest number of bytes of an address. -/
def maxLength : Nat := 90

/-- Why a text is no address. -/
inductive Fault where
  | tooShort
  | tooLong
  /-- The normal form is another text. -/
  | notNormalized
  /-- The normal form does not fit and is cut inside a character. -/
  | cut (fault : Utf8.Fault)
  deriving DecidableEq

/-- The message for a text that is no address. -/
def Fault.message : Fault → String
  | .tooShort =>
    "Generic error: " ++
      "Invalid input: human address too short for this mock implementation (must be >= 3)."
  | .tooLong =>
    "Generic error: " ++
      "Invalid input: human address too long for this mock implementation (must be <= 90)."
  | .notNormalized => "Generic error: Invalid input: address not normalized"
  | .cut fault => fault.message

/-- What the network keeps of a text: the lower-case form as far as it fits, without zeros. -/
def kept (s : String) : Bytes :=
  ((Bytes.ofText (Lowercase.ofText s)).take maxLength).filter (· ≠ 0)

/-- What is wrong with a text that is not in normal form. -/
def formFault (s : String) : Fault :=
  match Utf8.decode (kept s) with
  | .ok _ => .notNormalized
  | .error fault => .cut fault

/-- What is wrong with a text as an address, if anything is: its length is looked at first. -/
def fault? (s : String) : Option Fault :=
  if s.utf8ByteSize < minLength then some .tooShort
  else if maxLength < s.utf8ByteSize then some .tooLong
  else if '\x00' ∈ s.toList ∨ !Lowercase.isNormal s then some (formFault s)
  else none

/-- A text is an address if nothing is wrong with it. -/
def IsValid (s : String) : Prop :=
  fault? s = none

instance (s : String) : Decidable (IsValid s) :=
  inferInstanceAs (Decidable (fault? s = none))

theorem isValid_iff {s : String} : IsValid s ↔
    minLength ≤ s.utf8ByteSize ∧ s.utf8ByteSize ≤ maxLength ∧ '\x00' ∉ s.toList ∧
      Lowercase.isNormal s := by
  grind [IsValid, fault?]

end Address

end TokenCustody
