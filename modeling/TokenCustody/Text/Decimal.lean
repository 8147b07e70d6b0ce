/-!
# Decimal text

Numbers are written with their decimal digits alone. `Decimal.read?` also accepts leading zeros and
one plus sign in front.
-/

namespace TokenCustody

namespace Decimal

/-- The decimal text of a number. -/
def text (n : Nat) : String :=
  Nat.repr n

/-- The number written by a nonempty sequence of digits. -/
def ofDigits? (digits : List Char) : Option Nat :=
  if digits ≠ [] ∧ digits.all Char.isDigit then some (Nat.ofDigitChars 10 digits 0) else none

/-- The number written by digits behind at most one plus sign. -/
def read? (s : String) : Option Nat :=
  match s.toList with
  | '+' :: digits => ofDigits? digits
  | digits => ofDigits? digits

@[simp]
theorem toList_text (n : Nat) : (text n).toList = Nat.toDigits 10 n :=
  Nat.toList_repr

theorem ofDigits?_toDigits (n : Nat) : ofDigits? (Nat.toDigits 10 n) = some n := by
  have digits : (Nat.toDigits 10 n).all Char.isDigit :=
    List.all_eq_true.mpr fun _ h => Nat.isDigit_of_mem_toDigits (by decide) (by decide) h
  rw [ofDigits?, if_pos ⟨Nat.toDigits_ne_nil, digits⟩,
    Nat.ofDigitChars_toDigits (by decide) (by decide)]

/-- **Every number reads back from its text.** -/
@[simp]
theorem read?_text (n : Nat) : read? (text n) = some n := by
  have unsigned : ∀ digits, Nat.toDigits 10 n ≠ '+' :: digits := by
    intro digits h
    have plus : '+' ∈ Nat.toDigits 10 n := h ▸ List.mem_cons_self
    exact absurd (Nat.isDigit_of_mem_toDigits (by decide) (by decide) plus) (by decide)
  rw [read?, toList_text]
  split
  next digits h => exact absurd h (unsigned digits)
  next => exact ofDigits?_toDigits n

end Decimal

end TokenCustody
