import TokenCustody.Text.Hex

/-!
# Quoted text

The content of a JSON string, between its quotes. `Quoted.encode` escapes quotes, backslashes and
control characters. `Quoted.decode?` takes a content without any backslash as it stands, even with
control characters; in a content with a backslash it reads the escapes and refuses bare control
characters.

A character beyond `FFFF` may be written as two escapes, a high and a low surrogate. Escapes of
other characters may stand between the two; they are read first.
-/

namespace TokenCustody

namespace Quoted

/-- The letter of the short escape of a character, if it has one. -/
def letter? : Char → Option Char
  | '"' => some '"'
  | '\\' => some '\\'
  | '\x08' => some 'b'
  | '\x0C' => some 'f'
  | '\n' => some 'n'
  | '\r' => some 'r'
  | '\t' => some 't'
  | _ => none

/-- The character that a short escape stands for. A slash may be escaped, but is not in writing. -/
def short? : Char → Option Char
  | '"' => some '"'
  | '\\' => some '\\'
  | '/' => some '/'
  | 'b' => some '\x08'
  | 'f' => some '\x0C'
  | 'n' => some '\n'
  | 'r' => some '\r'
  | 't' => some '\t'
  | _ => none

/-- The escape of one character, or the character itself. -/
def encodeChar (c : Char) : List Char :=
  match letter? c with
  | some letter => ['\\', letter]
  | none =>
    if c.toNat < 0x20 then
      ['\\', 'u', '0', '0', Hex.upperDigit (c.toNat / 16), Hex.upperDigit (c.toNat % 16)]
    else [c]

/-- The quoted form of a text. -/
def encode (s : List Char) : List Char :=
  s.flatMap encodeChar

/-- The number written by four hexadecimal digits. -/
def unit? (a b c d : Char) : Option Nat := do
  let i ← Hex.value? a
  let j ← Hex.value? b
  let k ← Hex.value? c
  let l ← Hex.value? d
  return ((i * 16 + j) * 16 + k) * 16 + l

/-- The character that a pair of surrogates stands for. -/
def combine (high low : Nat) : Char :=
  Char.ofNat (0x10000 + (high - 0xD800) * 0x400 + (low - 0xDC00))

/-- The text of a content with escapes, where a high surrogate may be waiting for its low one. -/
def unescape? : (pending : Option Nat) → List Char → Option (List Char)
  | none, [] => some []
  | some _, [] => none
  | pending, '\\' :: 'u' :: a :: b :: c :: d :: r =>
    (unit? a b c d).bind fun unit =>
      if 0xD800 ≤ unit ∧ unit < 0xDC00 then
        if pending.isSome then none else unescape? (some unit) r
      else if 0xDC00 ≤ unit ∧ unit < 0xE000 then
        pending.bind fun high => (unescape? none r).map (combine high unit :: ·)
      else (unescape? pending r).map (Char.ofNat unit :: ·)
  | pending, '\\' :: c :: r =>
    (short? c).bind fun a => (unescape? pending r).map (a :: ·)
  | some _, _ :: _ => none
  | none, c :: r =>
    if c = '\\' ∨ c.toNat < 0x20 then none else (unescape? none r).map (c :: ·)

/-- The text of the content between two quotes. -/
def decode? (content : List Char) : Option (List Char) :=
  if '\\' ∈ content then unescape? none content else some content

/-! ### Reading what has been written -/

theorem short?_of_letter? {c letter : Char} (h : letter? c = some letter) :
    short? letter = some c := by
  unfold letter? at h
  split at h <;> simp_all [short?, eq_comm]

theorem unescape?_short {c letter : Char} (h : short? letter = some c) (r : List Char) :
    unescape? none ('\\' :: letter :: r) = (unescape? none r).map (c :: ·) := by
  rw [unescape?.eq_4 none letter r (by rintro _ _ _ _ _ rfl; simp [short?] at h), h]
  rfl

theorem unescape?_control {c : Char} (h : c.toNat < 0x20) (r : List Char) :
    unescape? none ('\\' :: 'u' :: '0' :: '0' :: Hex.upperDigit (c.toNat / 16) ::
      Hex.upperDigit (c.toNat % 16) :: r) = (unescape? none r).map (c :: ·) := by
  have hi : c.toNat / 16 < 16 := by omega
  have lo : c.toNat % 16 < 16 := by omega
  have zero : Hex.value? '0' = some 0 := by decide
  have unit : unit? '0' '0' (Hex.upperDigit (c.toNat / 16)) (Hex.upperDigit (c.toNat % 16))
      = some c.toNat := by
    simp only [unit?, zero, Hex.value?_upperDigit hi, Hex.value?_upperDigit lo, bind,
      Option.bind, pure]
    congr 1
    omega
  rw [unescape?, unit, Option.bind_some, if_neg (by omega), if_neg (by omega), Char.ofNat_toNat]

theorem unescape?_plain {c : Char} (hb : c ≠ '\\') (hc : ¬ c.toNat < 0x20) (r : List Char) :
    unescape? none (c :: r) = (unescape? none r).map (c :: ·) := by
  rw [unescape?.eq_6 c r (fun _ _ _ _ _ h _ => hb h) (fun _ _ h _ => hb h),
    if_neg (by simp [hb, hc])]

theorem ne_backslash_of_letter? {c : Char} (h : letter? c = none) : c ≠ '\\' := by
  rintro rfl
  cases h

theorem unescape?_encodeChar (c : Char) (r : List Char) :
    unescape? none (encodeChar c ++ r) = (unescape? none r).map (c :: ·) := by
  unfold encodeChar
  cases h : letter? c with
  | some letter => exact unescape?_short (short?_of_letter? h) r
  | none =>
    by_cases hc : c.toNat < 0x20
    · simpa [hc] using unescape?_control hc r
    · simpa [hc] using unescape?_plain (ne_backslash_of_letter? h) hc r

theorem unescape?_encode (s : List Char) : unescape? none (encode s) = some s := by
  induction s with
  | nil => rfl
  | cons c s ih =>
    rw [encode, List.flatMap_cons, unescape?_encodeChar, ← encode, ih]
    rfl

theorem encodeChar_eq_singleton {c : Char} (h : '\\' ∉ encodeChar c) : encodeChar c = [c] := by
  unfold encodeChar at h ⊢
  cases hl : letter? c with
  | some letter => simp [hl] at h
  | none =>
    by_cases hc : c.toNat < 0x20
    · simp [hl, hc] at h
    · simp [hc]

theorem encode_eq_self {s : List Char} (h : '\\' ∉ encode s) : encode s = s := by
  induction s with
  | nil => rfl
  | cons c s ih =>
    simp only [encode, List.flatMap_cons, List.mem_append, not_or] at h ih ⊢
    rw [encodeChar_eq_singleton h.1, ih h.2]
    rfl

/-- **Every text reads back from its quoted form.** -/
@[simp]
theorem decode?_encode (s : List Char) : decode? (encode s) = some s := by
  unfold decode?
  split
  · exact unescape?_encode s
  next h => rw [encode_eq_self h]

end Quoted

end TokenCustody
