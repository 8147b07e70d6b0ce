import TokenCustody.EthAddress

/-!
# Hexadecimal text of either case

Digits of either case are read, and lower-case digits are written. So what is written of bytes that
have been read is the text itself, in lower case (`Hex.digits_of_ofDigits?`); and the text of an
address is its forty digits in lower case behind the mark, however they have been given
(`EthAddress.text_of_parse`).
-/

namespace TokenCustody

namespace Hex

/-- The first characters can be gone through one by one. -/
theorem forall_char_lt {bound : Nat} {P : Char → Prop}
    (h : ∀ n ∈ List.range bound, P (Char.ofNat n)) {c : Char} (hc : c.toNat < bound) : P c := by
  have hn := h c.toNat (List.mem_range.mpr hc)
  rwa [Char.ofNat_toNat] at hn

/-- The digits of either case are among the first characters. -/
theorem toNat_lt_of_value? {c : Char} {n : Nat} (h : value? c = some n) : c.toNat < 103 := by
  refine Nat.lt_of_not_le fun hge => ?_
  have hnot (d : Char) (hd : d.toNat < 103) : ¬ c ≤ d := fun hle =>
    Nat.lt_irrefl _ (Nat.lt_of_lt_of_le (Nat.lt_of_le_of_lt hle hd) hge)
  simp [value?, hnot '9' (by decide), hnot 'f' (by decide), hnot 'F' (by decide)] at h

/-- The number of a digit is below sixteen, and its digit is the given one in lower case. -/
theorem digit_of_value? {c : Char} {n : Nat} (h : value? c = some n) :
    n < 16 ∧ digit n = c.toLower := by
  have all : ∀ k ∈ List.range 103, ∀ n ∈ value? (Char.ofNat k),
      n < 16 ∧ digit n = (Char.ofNat k).toLower := by decide
  have hc := forall_char_lt (P := fun c => ∀ n ∈ value? c, n < 16 ∧ digit n = c.toLower) all
    (toNat_lt_of_value? h)
  exact hc n h

/-- Only a capital letter is another character in lower case. -/
theorem toLower_of_not_capital {c : Char} (h : ¬ (c.val ≥ 'A'.val ∧ c.val ≤ 'Z'.val)) :
    c.toLower = c :=
  dif_neg h

/-- A digit has the same number in lower case. -/
@[simp]
theorem value?_toLower (c : Char) : value? c.toLower = value? c := by
  by_cases h : c.val ≥ 'A'.val ∧ c.val ≤ 'Z'.val
  · have all : ∀ k ∈ List.range 91, value? (Char.ofNat k).toLower = value? (Char.ofNat k) := by
      decide
    have high : c.toNat ≤ 90 := UInt32.le_iff_toNat_le.mp h.2
    exact forall_char_lt (P := fun c => value? c.toLower = value? c) all (Nat.lt_succ_of_le high)
  · rw [toLower_of_not_capital h]

/-- **What has been read is written in lower case.** -/
theorem digits_of_ofDigits? {cs : List Char} {b : Bytes} (h : ofDigits? cs = some b) :
    digits b = cs.map Char.toLower := by
  induction cs using ofDigits?.induct generalizing b with
  | case1 =>
    obtain rfl := Option.some.inj h
    rfl
  | case2 c => cases h
  | case3 c d r ih =>
    simp only [ofDigits?, Option.bind_eq_bind, Option.bind_eq_some_iff, Option.pure_def,
      Option.some.injEq] at h
    obtain ⟨hi, hc, lo, hd, rest, hrest, rfl⟩ := h
    obtain ⟨hhi, hcdigit⟩ := digit_of_value? hc
    obtain ⟨hlo, hddigit⟩ := digit_of_value? hd
    have hbyte : (UInt8.ofNat (16 * hi + lo)).toNat = 16 * hi + lo :=
      UInt8.toNat_ofNat_of_lt (by rw [UInt8.size]; omega)
    have hdiv : (16 * hi + lo) / 16 = hi := by omega
    have hmod : (16 * hi + lo) % 16 = lo := by omega
    rw [digits, hbyte, hdiv, hmod, hcdigit, hddigit, ih hrest, List.map_cons, List.map_cons]

@[simp]
theorem ofDigits?_map_toLower (cs : List Char) :
    ofDigits? (cs.map Char.toLower) = ofDigits? cs := by
  induction cs using ofDigits?.induct with
  | case1 => rfl
  | case2 c => rfl
  | case3 c d r ih => simp only [List.map_cons, ofDigits?, value?_toLower, ih]

/-- **Bytes are read from their digits** in either case, and from nothing else. -/
theorem ofDigits?_eq_some {cs : List Char} {b : Bytes} :
    ofDigits? cs = some b ↔ cs.map Char.toLower = digits b := by
  constructor
  · intro h
    exact (digits_of_ofDigits? h).symm
  · intro h
    rw [← ofDigits?_map_toLower, h, ofDigits?_digits]

/-- Characters are read as bytes exactly if they are digits, and an even number of them. -/
theorem isSome_ofDigits? {cs : List Char} :
    (ofDigits? cs).isSome ↔ cs.length % 2 = 0 ∧ ∀ c ∈ cs, (value? c).isSome := by
  induction cs using ofDigits?.induct with
  | case1 => simp [ofDigits?]
  | case2 c => simp [ofDigits?]
  | case3 c d r ih =>
    have hlength : (c :: d :: r).length % 2 = r.length % 2 := Nat.add_mod_right r.length 2
    rw [hlength, List.forall_mem_cons, List.forall_mem_cons, ofDigits?]
    cases value? c <;> cases value? d <;> cases hr : ofDigits? r <;> simp_all

theorem length_digits (b : Bytes) : (digits b).length = 2 * b.length := by
  induction b with
  | nil => rfl
  | cons x r ih =>
    simp only [digits, List.length_cons, ih]
    omega

end Hex

namespace EthAddress

variable {text : String} {a : EthAddress}

/-- An address is read from the digits of its text. -/
theorem ofDigits?_of_parse (h : parse text = .ok a) :
    Hex.ofDigits? (unmarked text.toList) = some a.toList := by
  simp only [parse] at h
  split at h
  · cases h
  · split at h
    · cases h
    next digits hdigits =>
      obtain ⟨b, hb, hvector⟩ := Option.bind_eq_some_iff.mp hdigits
      split at h
      · cases h
      · cases h
        rw [hb, Bytes.toVector?_eq_some.mp hvector]

/-- There are forty of them. -/
theorem length_of_parse (h : parse text = .ok a) : (unmarked text.toList).length = 40 := by
  have hdigits := Hex.digits_of_ofDigits? (ofDigits?_of_parse h)
  have hlength := congrArg List.length hdigits
  rw [Hex.length_digits, a.length_toList, List.length_map] at hlength
  exact hlength.symm

/-- **The text of an address** is the text that it has been read from, in lower case and with the
mark. -/
theorem text_of_parse (h : parse text = .ok a) :
    a.text = "0x" ++ String.ofList ((unmarked text.toList).map Char.toLower) := by
  rw [EthAddress.text, Hex.marked, Hex.encode, Hex.digits_of_ofDigits? (ofDigits?_of_parse h)]

end EthAddress

end TokenCustody
