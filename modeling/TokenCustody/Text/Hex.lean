import TokenCustody.Bytes

/-!
# Hexadecimal text

`Hex.encode` writes each byte as two lower-case digits; `Hex.decode?` reads digits of either case.
-/

namespace TokenCustody

namespace Hex

/-- The lower-case digit for a number below sixteen. -/
def digit (n : Nat) : Char :=
  Nat.digitChar n

/-- The upper-case digit for a number below sixteen. -/
def upperDigit (n : Nat) : Char :=
  (Nat.digitChar n).toUpper

/-- The number that a digit of either case stands for. -/
def value? (c : Char) : Option Nat :=
  if '0' ≤ c ∧ c ≤ '9' then some (c.toNat - '0'.toNat)
  else if 'a' ≤ c ∧ c ≤ 'f' then some (c.toNat - 'a'.toNat + 10)
  else if 'A' ≤ c ∧ c ≤ 'F' then some (c.toNat - 'A'.toNat + 10)
  else none

/-- The digits of a byte string, two for each byte. -/
def digits : Bytes → List Char
  | [] => []
  | b :: r => digit (b.toNat / 16) :: digit (b.toNat % 16) :: digits r

/-- The bytes written as pairs of digits. -/
def ofDigits? : List Char → Option Bytes
  | [] => some []
  | [_] => none
  | c :: d :: r => do
    let hi ← value? c
    let lo ← value? d
    let rest ← ofDigits? r
    return UInt8.ofNat (16 * hi + lo) :: rest

/-- The lower-case hexadecimal text of a byte string. -/
def encode (b : Bytes) : String :=
  String.ofList (digits b)

/-- The bytes that a hexadecimal text of either case stands for. -/
def decode? (s : String) : Option Bytes :=
  ofDigits? s.toList

/-- The hexadecimal text of a byte string with the customary mark in front. -/
def marked (b : Bytes) : String :=
  "0x" ++ encode b

theorem value?_digit {n : Nat} (h : n < 16) : value? (digit n) = some n := by
  have all : ∀ n ∈ List.range 16, value? (digit n) = some n := by decide
  exact all n (List.mem_range.mpr h)

theorem value?_upperDigit {n : Nat} (h : n < 16) : value? (upperDigit n) = some n := by
  have all : ∀ n ∈ List.range 16, value? (upperDigit n) = some n := by decide
  exact all n (List.mem_range.mpr h)

@[simp]
theorem ofDigits?_digits (b : Bytes) : ofDigits? (digits b) = some b := by
  induction b with
  | nil => rfl
  | cons x r ih =>
    have hx : x.toNat < 256 := x.toNat_lt
    have hi : x.toNat / 16 < 16 := by omega
    have lo : x.toNat % 16 < 16 := by omega
    have sum : 16 * (x.toNat / 16) + x.toNat % 16 = x.toNat := by omega
    simp only [digits, ofDigits?, value?_digit hi, value?_digit lo, ih, sum, UInt8.ofNat_toNat,
      Option.bind_eq_bind, Option.bind_some, Option.pure_def]

@[simp]
theorem decode?_encode (b : Bytes) : decode? (encode b) = some b := by
  simp [decode?, encode]

end Hex

end TokenCustody
