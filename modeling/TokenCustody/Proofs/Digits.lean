import Mathlib.Algebra.Order.Ring.Nat
import Mathlib.Tactic.Ring
import TokenCustody.Bytes

/-!
# Big-endian digits determine a number

A number that fits into a given number of bytes is read back from its big-endian digits
(`Bytes.toNat_bigEndian`). So two numbers in range with the same digits are equal, which is what the
words of an authorization and the keys of the nonces rest on.
-/

namespace TokenCustody

namespace Bytes

/-- The value of a byte string grows by one digit at its end. -/
theorem toNat_append_singleton (b : Bytes) (x : UInt8) :
    toNat (b ++ [x]) = 256 * toNat b + x.toNat := by
  simp [toNat, List.foldl_append]

/-- The digits are those of the number modulo the number of digit strings. -/
theorem toNat_bigEndian (width n : ℕ) : toNat (bigEndian width n) = n % 256 ^ width := by
  induction width generalizing n with
  | zero => simp [bigEndian, toNat, Nat.mod_one]
  | succ width ih =>
    rw [bigEndian, toNat_append_singleton, ih, UInt8.toNat_ofNat', pow_succ' 256 width, Nat.mod_mul]
    omega

/-- Numbers in range with the same digits are equal. -/
theorem bigEndian_inj {width n m : ℕ} (hn : n < 256 ^ width) (hm : m < 256 ^ width) :
    bigEndian width n = bigEndian width m ↔ n = m := by
  refine ⟨fun h => ?_, fun h => h ▸ rfl⟩
  have hval : toNat (bigEndian width n) = toNat (bigEndian width m) := congrArg toNat h
  rwa [toNat_bigEndian, toNat_bigEndian, Nat.mod_eq_of_lt hn, Nat.mod_eq_of_lt hm] at hval

end Bytes

end TokenCustody
