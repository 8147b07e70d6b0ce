import Mathlib.Tactic.Push
import TokenCustody.Proofs.HexText

/-!
# Which texts are addresses

A text denotes an address if it is forty hexadecimal digits of either case, not all zero, behind at
most one mark; and then the text of that address is these digits in lower case, behind a mark
(`EthAddress.parse_inverts_text`). The length is counted in bytes and looked at before any
character is, so a text of other characters may pass for long enough and is refused for its
characters only then. That does no harm: a character is a digit exactly if all bytes of its encoding
are codes of digits (`Hex.forall_mem_ofText`), so a text of digits has as many characters as bytes.
-/

namespace TokenCustody

/-! ### Digits in UTF-8 -/

namespace Hex

/-- A byte is the code of a hexadecimal digit of either case. -/
def IsDigitCode (b : UInt8) : Prop :=
  0x30 ≤ b ∧ b ≤ 0x39 ∨ 0x41 ≤ b ∧ b ≤ 0x46 ∨ 0x61 ≤ b ∧ b ≤ 0x66

instance (b : UInt8) : Decidable (IsDigitCode b) := by
  unfold IsDigitCode
  infer_instance

/-- A character beyond the first 128 ends with a byte beyond the first 128. -/
theorem exists_mem_utf8EncodeChar {c : Char} (h : 128 ≤ c.toNat) :
    UInt8.ofNat (c.toNat % 64 + 128) ∈ String.utf8EncodeChar c := by
  have hc : ¬ c.val.toNat ≤ 127 := Nat.not_le.mpr h
  simp only [String.utf8EncodeChar, if_neg hc, Char.toNat]
  split
  · simp
  · split <;> simp

/-- A character is a digit exactly if all bytes of its encoding are codes of digits. -/
theorem forall_mem_utf8EncodeChar (c : Char) :
    (∀ b ∈ String.utf8EncodeChar c, IsDigitCode b) ↔ (value? c).isSome := by
  rcases Nat.lt_or_ge c.toNat 128 with hc | hc
  · have all : ∀ n ∈ List.range 128, (∀ b ∈ String.utf8EncodeChar (Char.ofNat n), IsDigitCode b) ↔
        (value? (Char.ofNat n)).isSome := by decide +kernel
    exact forall_char_lt
      (P := fun c => (∀ b ∈ String.utf8EncodeChar c, IsDigitCode b) ↔ (value? c).isSome) all hc
  · refine iff_of_false (fun hall => ?_) fun hsome => ?_
    · have hlast := hall _ (exists_mem_utf8EncodeChar hc)
      have all : ∀ n ∈ List.range 64, ¬ IsDigitCode (UInt8.ofNat (n + 128)) := by decide
      exact all _ (List.mem_range.mpr (Nat.mod_lt _ (by decide))) hlast
    · obtain ⟨n, hn⟩ := Option.isSome_iff_exists.mp hsome
      have hlt := toNat_lt_of_value? hn
      omega

/-- **The characters of a text are digits** exactly if its bytes are codes of digits. -/
theorem forall_mem_ofText (cs : List Char) :
    (∀ b ∈ Bytes.ofText (String.ofList cs), IsDigitCode b) ↔ ∀ c ∈ cs, (value? c).isSome := by
  simp only [Bytes.ofText_ofList, ← forall_mem_utf8EncodeChar, List.mem_flatMap]
  constructor
  · intro h c hc b hb
    exact h b ⟨c, hc, hb⟩
  · rintro h b ⟨c, hc, hb⟩
    exact h c hc b hb

/-- A text of digits has as many bytes as digits. -/
theorem utf8ByteSize_of_digits {cs : List Char} (h : ∀ c ∈ cs, (value? c).isSome) :
    (String.ofList cs).utf8ByteSize = cs.length := by
  rw [← Bytes.length_ofText, Bytes.ofText_ofList]
  induction cs with
  | nil => rfl
  | cons c cs ih =>
    obtain ⟨hc, hcs⟩ := List.forall_mem_cons.mp h
    obtain ⟨n, hn⟩ := Option.isSome_iff_exists.mp hc
    have hlt := toNat_lt_of_value? hn
    have hbyte : String.utf8EncodeChar c = [UInt8.ofNat c.toNat] :=
      if_pos (Nat.le_of_lt_succ (Nat.lt_trans hlt (by decide)))
    rw [List.flatMap_cons, hbyte, List.length_append, ih hcs, List.length_cons]
    exact Nat.add_comm ..

/-- Forty bytes are read exactly if they are codes of digits. -/
theorem isSome_ofDigits?_of_size {cs : List Char} (h : (String.ofList cs).utf8ByteSize = 40) :
    (ofDigits? cs).isSome ↔ ∀ b ∈ Bytes.ofText (String.ofList cs), IsDigitCode b := by
  rw [isSome_ofDigits?, forall_mem_ofText, and_iff_right_iff_imp]
  intro hall
  rw [← utf8ByteSize_of_digits hall, h]

theorem digits_injective {b b' : Bytes} (h : digits b = digits b') : b = b' := by
  have hread := congrArg ofDigits? h
  rw [ofDigits?_digits, ofDigits?_digits] at hread
  exact Option.some.inj hread

theorem toLower_eq_zero {c : Char} (h : c.toLower = '0') : c = '0' := by
  by_cases hupper : c.val ≥ 'A'.val ∧ c.val ≤ 'Z'.val
  · have all : ∀ n ∈ List.range 91, (Char.ofNat n).toLower = '0' → Char.ofNat n = '0' := by decide
    have high : c.toNat ≤ 90 := UInt32.le_iff_toNat_le.mp hupper.2
    exact forall_char_lt (P := fun c => c.toLower = '0' → c = '0') all (Nat.lt_succ_of_le high) h
  · rwa [toLower_of_not_capital hupper] at h

end Hex

/-! ### Reading an address -/

namespace EthAddress

open Hex (IsDigitCode)

variable {s t : String} {a b : EthAddress} {cs : List Char}

/-- Bytes that are read from forty bytes of text are an address. -/
theorem exists_toList_eq {bytes : Bytes} (hsize : (String.ofList cs).utf8ByteSize = 40)
    (h : Hex.ofDigits? cs = some bytes) : ∃ a : EthAddress, a.toList = bytes := by
  have hall := (Hex.isSome_ofDigits?.mp (Option.isSome_of_mem h)).2
  have hlength := congrArg List.length (Hex.ofDigits?_eq_some.mp h)
  rw [List.length_map, Hex.length_digits, ← Hex.utf8ByteSize_of_digits hall, hsize] at hlength
  exact ⟨⟨bytes.toArray, by simp; omega⟩, rfl⟩

/-- Forty bytes of text denote the zero address exactly if all its digits are zero. -/
theorem ofDigits?_eq_zero (hsize : (String.ofList cs).utf8ByteSize = 40) :
    Hex.ofDigits? cs = some zero.toList ↔ ∀ c ∈ cs, c = '0' := by
  have hdigits : Hex.digits zero.toList = List.replicate 40 '0' := by decide
  rw [Hex.ofDigits?_eq_some, hdigits, List.eq_replicate_iff, List.length_map, List.forall_mem_map]
  constructor
  · rintro ⟨-, hall⟩ c hc
    exact Hex.toLower_eq_zero (hall c hc)
  · intro hall
    have hvalue : ∀ c ∈ cs, (Hex.value? c).isSome := fun c hc => hall c hc ▸ rfl
    refine ⟨(Hex.utf8ByteSize_of_digits hvalue).symm.trans hsize, fun c hc => ?_⟩
    rw [hall c hc]
    rfl

/-- **How reading an address ends**, by the bytes and the digits behind the mark. -/
theorem parse_cases (s : String) :
    let digits := unmarked s.toList
    let bytes := Bytes.ofText (String.ofList digits)
    (bytes.length ≠ 40 ∧ parse s = .error .length) ∨
      (bytes.length = 40 ∧ (∃ b ∈ bytes, ¬ IsDigitCode b) ∧ parse s = .error .digit) ∨
      (bytes.length = 40 ∧ (∀ b ∈ bytes, IsDigitCode b) ∧ (∀ c ∈ digits, c = '0') ∧
        parse s = .error .zero) ∨
      ∃ a, bytes.length = 40 ∧ (∀ b ∈ bytes, IsDigitCode b) ∧ (∃ c ∈ digits, c ≠ '0') ∧
        parse s = .ok a := by
  intro digits bytes
  have hlength : bytes.length = (String.ofList digits).utf8ByteSize := Bytes.length_ofText _
  rw [parse, hlength]
  rcases ne_or_eq (String.ofList digits).utf8ByteSize 40 with hsize | hsize
  · exact .inl ⟨hsize, if_pos hsize⟩
  have hcodes := Hex.isSome_ofDigits?_of_size hsize
  have hzeros := ofDigits?_eq_zero hsize
  rw [if_neg (not_not_intro hsize)]
  cases hdigits : Hex.ofDigits? digits with
  | none =>
    simp only [hdigits, Option.isSome_none, Bool.false_eq_true, false_iff] at hcodes
    push Not at hcodes
    exact .inr (.inl ⟨hsize, hcodes, rfl⟩)
  | some read =>
    obtain ⟨a, rfl⟩ := exists_toList_eq hsize hdigits
    rw [hdigits] at hcodes hzeros
    rw [Option.bind_some, Bytes.toVector?_toList]
    by_cases hzero : a = zero
    · subst hzero
      exact .inr (.inr (.inl ⟨hsize, hcodes.mp rfl, hzeros.mp rfl, if_pos rfl⟩))
    · have hne : ¬ ∀ c ∈ digits, c = '0' := fun hall =>
        hzero (Vector.toList_inj.mp (Option.some.inj (hzeros.mpr hall)))
      push Not at hne
      exact .inr (.inr (.inr ⟨a, hsize, hcodes.mp rfl, hne, if_neg hzero⟩))

/-- What each way to end says of the text. -/
theorem parse_decided (s : String) :
    let digits := unmarked s.toList
    let bytes := Bytes.ofText (String.ofList digits)
    (parse s = .error .length ↔ bytes.length ≠ 40) ∧
      (parse s = .error .digit ↔ bytes.length = 40 ∧ ∃ b ∈ bytes, ¬ IsDigitCode b) ∧
      (parse s = .error .zero ↔
        bytes.length = 40 ∧ (∀ b ∈ bytes, IsDigitCode b) ∧ ∀ c ∈ digits, c = '0') ∧
      ((∃ a, parse s = .ok a) ↔
        bytes.length = 40 ∧ (∀ b ∈ bytes, IsDigitCode b) ∧ ∃ c ∈ digits, c ≠ '0') := by
  intro digits bytes
  -- the ways exclude each other, and so do the conditions
  rcases parse_cases s with ⟨hlength, hparse⟩ | ⟨hlength, ⟨b, hb, hnot⟩, hparse⟩ |
    ⟨hlength, hcodes, hzeros, hparse⟩ | ⟨a, hlength, hcodes, ⟨c, hc, hne⟩, hparse⟩
  · rw [hparse]
    refine ⟨iff_of_true rfl hlength, ?_, ?_, ?_⟩
    · exact iff_of_false nofun fun h => hlength h.1
    · exact iff_of_false nofun fun h => hlength h.1
    · exact iff_of_false nofun fun h => hlength h.1
  · rw [hparse]
    refine ⟨iff_of_false nofun fun h => h hlength, iff_of_true rfl ⟨hlength, b, hb, hnot⟩, ?_, ?_⟩
    · exact iff_of_false nofun fun h => hnot (h.2.1 b hb)
    · exact iff_of_false nofun fun h => hnot (h.2.1 b hb)
  · rw [hparse]
    refine ⟨iff_of_false nofun fun h => h hlength, ?_, iff_of_true rfl ⟨hlength, hcodes, hzeros⟩,
      ?_⟩
    · exact iff_of_false nofun fun ⟨_, b, hb, hnot⟩ => hnot (hcodes b hb)
    · exact iff_of_false nofun fun ⟨_, _, c, hc, hne⟩ => hne (hzeros c hc)
  · rw [hparse]
    refine ⟨iff_of_false nofun fun h => h hlength, ?_, ?_,
      iff_of_true ⟨a, rfl⟩ ⟨hlength, hcodes, c, hc, hne⟩⟩
    · exact iff_of_false nofun fun ⟨_, b, hb, hnot⟩ => hnot (hcodes b hb)
    · exact iff_of_false nofun fun ⟨_, _, hzeros⟩ => hne (hzeros c hc)

/-! ### Texts and addresses -/

/-- Two texts denote the same address exactly if their digits agree up to case. -/
theorem eq_iff_of_parse (hs : parse s = .ok a) (ht : parse t = .ok b) :
    a = b ↔ (unmarked s.toList).map Char.toLower = (unmarked t.toList).map Char.toLower := by
  rw [Hex.ofDigits?_eq_some.mp (ofDigits?_of_parse hs),
    Hex.ofDigits?_eq_some.mp (ofDigits?_of_parse ht)]
  constructor
  · rintro rfl
    rfl
  · intro h
    exact Vector.toList_inj.mp (Hex.digits_injective h)

theorem unmarked_text (a : EthAddress) : unmarked a.text.toList = Hex.digits a.toList := by
  simp only [EthAddress.text, Hex.marked, Hex.encode, String.toList_append, String.toList_ofList]
  rfl

/-- **The text of an address** denotes it, unless it is the zero address. -/
theorem parse_text (h : a ≠ zero) : parse a.text = .ok a := by
  have hread : Hex.ofDigits? (unmarked a.text.toList) = some a.toList := by
    rw [unmarked_text, Hex.ofDigits?_digits]
  have hall := (Hex.isSome_ofDigits?.mp (Option.isSome_of_mem hread)).2
  have hsize : (String.ofList (unmarked a.text.toList)).utf8ByteSize = 40 := by
    rw [Hex.utf8ByteSize_of_digits hall, unmarked_text, Hex.length_digits, a.length_toList]
  simp only [parse, hsize, hread, ne_eq, not_true, if_false, Option.bind_some,
    Bytes.toVector?_toList, if_neg h]

/-- **Reading an address inverts its text.** Behind at most one mark, a text that does not have
forty bytes is refused for its length, one with a byte that is the code of no digit for that digit,
and forty zeros for being zero; any other denotes an address, the text of which is the digits in
lower case behind a mark. So every address but the zero address is read from its own text, and two
texts denote the same address exactly if their digits agree up to case. -/
theorem parse_inverts_text (s : String) :
    let digits := unmarked s.toList
    let bytes := Bytes.ofText (String.ofList digits)
    (parse s = .error .length ↔ bytes.length ≠ 40) ∧
      (parse s = .error .digit ↔ bytes.length = 40 ∧ ∃ b ∈ bytes, ¬ IsDigitCode b) ∧
      (parse s = .error .zero ↔
        bytes.length = 40 ∧ (∀ b ∈ bytes, IsDigitCode b) ∧ ∀ c ∈ digits, c = '0') ∧
      ((∃ a, parse s = .ok a) ↔
        bytes.length = 40 ∧ (∀ b ∈ bytes, IsDigitCode b) ∧ ∃ c ∈ digits, c ≠ '0') ∧
      (∀ a, parse s = .ok a → a.text = "0x" ++ String.ofList (digits.map Char.toLower)) ∧
      (∀ a, a ≠ zero → parse a.text = .ok a) ∧
      ∀ t a b, parse s = .ok a → parse t = .ok b →
        (a = b ↔ digits.map Char.toLower = (unmarked t.toList).map Char.toLower) := by
  intro digits bytes
  obtain ⟨hlength, hdigit, hzero, hok⟩ := parse_decided s
  exact ⟨hlength, hdigit, hzero, hok, fun a => text_of_parse, fun a => parse_text,
    fun t a b => eq_iff_of_parse⟩

/-- The same address in capitals behind the other mark and in lower case without one, and a text of
twenty characters that passes for long enough. -/
theorem parse_inverts_text_of_capitals :
    let capitals := "0XF39FD6E51AAD88F6F4CE6AB8827279CFFFB92266"
    let bare := "f39fd6e51aad88f6f4ce6ab8827279cfffb92266"
    (∃ a, parse capitals = .ok a ∧ parse bare = .ok a ∧ a.text = "0x" ++ bare ∧
      parse a.text = .ok a) ∧
      parse "éééééééééééééééééééé" = .error .digit := by
  intro capitals bare
  obtain ⟨-, -, -, hcapitals, htext, hinverts, heq⟩ := parse_inverts_text capitals
  obtain ⟨-, -, -, hbare, -⟩ := parse_inverts_text bare
  obtain ⟨-, hdigit, -⟩ := parse_inverts_text "éééééééééééééééééééé"
  obtain ⟨a, ha⟩ :=
    hcapitals.mpr ⟨by decide +kernel, by decide +kernel, 'F', by decide +kernel, by decide⟩
  obtain ⟨b, hb⟩ :=
    hbare.mpr ⟨by decide +kernel, by decide +kernel, 'f', by decide +kernel, by decide⟩
  obtain rfl : a = b := (heq bare a b ha hb).mpr (by decide +kernel)
  have hlower := htext a ha
  have hne : a ≠ zero := by
    rintro rfl
    exact absurd hlower (by decide +kernel)
  exact ⟨⟨a, ha, hb, hlower.trans (by decide +kernel), hinverts a hne⟩,
    hdigit.mpr (by decide +kernel)⟩

end EthAddress

end TokenCustody
