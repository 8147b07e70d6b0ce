import TokenCustody.Bytes
import TokenCustody.Text.Decimal

/-!
# Reading UTF-8

The machine that reads a byte string as UTF-8 takes one byte at a time. It knows which bytes may
come next in the character that it is in, and so it stops at the first byte that rules the text out:
an `Utf8.Fault` says where the character at fault starts and how many bytes of it were possible.
Main statement: the encoding of a text is read back as that text.
-/

namespace TokenCustody

namespace Utf8

/-- Why a byte string is no text. -/
inductive Fault where
  /-- The given number of bytes, from the given index on, start no character. -/
  | invalid (length index : Nat)
  /-- The bytes from the given index on are the start of a character, but not all of it. -/
  | incomplete (index : Nat)
  deriving DecidableEq

/-- The message for a byte string that is no text. -/
def Fault.message : Fault → String
  | .invalid length index =>
    let found := s!"invalid utf-8 sequence of {Decimal.text length} bytes"
    s!"Cannot decode UTF8 bytes into string: {found} from index {Decimal.text index}"
  | .incomplete index =>
    let found := "incomplete utf-8 byte sequence"
    s!"Cannot decode UTF8 bytes into string: {found} from index {Decimal.text index}"

/-- The least and the greatest byte at some place. -/
abbrev Range := Nat × Nat

/-- The bytes that may stand anywhere in a character but at its start. -/
def tail : Range := (0x80, 0xBF)

/-- What the first byte of a character adds to its number, and which bytes must follow. The second
byte is restricted where a shorter encoding, a surrogate or a number too large would arise. -/
def start? (b : Nat) : Option (Nat × List Range) :=
  if b < 0x80 then some (b, [])
  else if b < 0xC2 then none
  else if b < 0xE0 then some (b % 32, [tail])
  else if b = 0xE0 then some (b % 16, [(0xA0, 0xBF), tail])
  else if b = 0xED then some (b % 16, [(0x80, 0x9F), tail])
  else if b < 0xF0 then some (b % 16, [tail, tail])
  else if b = 0xF0 then some (b % 8, [(0x90, 0xBF), tail, tail])
  else if b < 0xF4 then some (b % 8, [tail, tail, tail])
  else if b = 0xF4 then some (b % 8, [(0x80, 0x8F), tail, tail])
  else none

/-- What the machine is in the middle of. -/
inductive Mode where
  /-- Between two characters, at the given index. -/
  | between (index : Nat)
  /-- In a character that starts at `index`. Its first `seen` bytes make `number` so far; a byte in
  the range `next` must follow, and `more` behind it. -/
  | inside (index seen number : Nat) (next : Range) (more : List Range)
  deriving DecidableEq

namespace Mode

/-- The mode after some bytes of a character, and the character if these are all. -/
def after (index seen number : Nat) : List Range → Mode × List Char
  | [] => (.between (index + seen), [Char.ofNat number])
  | next :: more => (.inside index seen number next more, [])

/-- What one byte leads to: the next mode, and the character that is complete with it. -/
def step : Mode → Nat → Except Fault (Mode × List Char)
  | .between index, b =>
    match start? b with
    | some (number, ranges) => .ok (after index 1 number ranges)
    | none => .error (.invalid 1 index)
  | .inside index seen number next more, b =>
    if next.1 ≤ b ∧ b ≤ next.2 then .ok (after index (seen + 1) (64 * number + b % 64) more)
    else .error (.invalid seen index)

/-- Whether the text may end here. -/
def finish : Mode → Except Fault (List Char)
  | .between _ => .ok []
  | .inside index .. => .error (.incomplete index)

end Mode

/-- The characters that a byte string encodes, starting in a given mode. -/
def decodeFrom : Mode → Bytes → Except Fault (List Char)
  | mode, [] => mode.finish
  | mode, b :: r =>
    (mode.step b.toNat).bind fun (mode, done) => (decodeFrom mode r).map (done ++ ·)

/-- The text that a byte string encodes. -/
def decode (b : Bytes) : Except Fault String :=
  (decodeFrom (.between 0) b).map String.ofList

/-! ### Reading what has been encoded -/

theorem start?_one {n : Nat} (h : n < 128) : start? n = some (n, []) :=
  if_pos h

theorem start?_two {n : Nat} (low : 2 ≤ n) (high : n < 32) :
    start? (n + 192) = some (n, [tail]) := by
  have all : ∀ n ∈ List.range 32, 2 ≤ n → start? (n + 192) = some (n, [tail]) := by decide
  exact all n (List.mem_range.mpr high) low

theorem start?_three {n : Nat} (h : n < 16) :
    start? (n + 224) =
      some (n, [(if n = 0 then 160 else 128, if n = 13 then 159 else 191), tail]) := by
  have all : ∀ n ∈ List.range 16, start? (n + 224) =
      some (n, [(if n = 0 then 160 else 128, if n = 13 then 159 else 191), tail]) := by decide
  exact all n (List.mem_range.mpr h)

theorem start?_four {n : Nat} (h : n < 5) :
    start? (n + 240) =
      some (n, [(if n = 0 then 144 else 128, if n = 4 then 143 else 191), tail, tail]) := by
  have all : ∀ n ∈ List.range 5, start? (n + 240) =
      some (n, [(if n = 0 then 144 else 128, if n = 4 then 143 else 191), tail, tail]) := by decide
  exact all n (List.mem_range.mpr h)

theorem step_between {b number : Nat} {ranges : List Range} (h : start? b = some (number, ranges))
    (index : Nat) : (Mode.between index).step b = .ok (Mode.after index 1 number ranges) := by
  rw [Mode.step, h]

theorem step_inside {low high b : Nat} (h : low ≤ b ∧ b ≤ high) (index seen number : Nat)
    (more : List Range) : (Mode.inside index seen number (low, high) more).step b =
      .ok (Mode.after index (seen + 1) (64 * number + b % 64) more) :=
  if_pos h

theorem step_tail (n index seen number : Nat) (more : List Range) :
    (Mode.inside index seen number tail more).step (n % 64 + 128) =
      .ok (Mode.after index (seen + 1) (64 * number + n % 64) more) := by
  have digits : (n % 64 + 128) % 64 = n % 64 := by omega
  rw [tail, step_inside (by omega), digits]

theorem decodeFrom_ofNat {mode next : Mode} {n : Nat} {done : List Char} (byte : n < 256)
    (h : mode.step n = .ok (next, done)) (r : Bytes) :
    decodeFrom mode (UInt8.ofNat n :: r) = (decodeFrom next r).map (done ++ ·) := by
  rw [decodeFrom, UInt8.toNat_ofNat_of_lt' byte, h]
  rfl

/-- **A character is read back from its encoding**, whatever follows. -/
theorem decodeFrom_utf8EncodeChar (c : Char) (index : Nat) (r : Bytes) :
    ∃ next, decodeFrom (.between index) (String.utf8EncodeChar c ++ r) =
      (decodeFrom (.between next) r).map (c :: ·) := by
  have valid : c.val.toNat < 0xD800 ∨ 0xDFFF < c.val.toNat ∧ c.val.toNat < 0x110000 := c.valid
  have back : Char.ofNat c.val.toNat = c := Char.ofNat_toNat c
  have skip : ∀ e : Except Fault (List Char), e.map ([] ++ ·) = e := by rintro ⟨⟩ <;> rfl
  simp only [String.utf8EncodeChar]
  generalize c.val.toNat = n at valid back
  split
  · refine ⟨index + 1, ?_⟩
    rw [List.singleton_append,
      decodeFrom_ofNat (by omega) (step_between (start?_one (by omega)) index), back]
    rfl
  split
  · refine ⟨index + 2, ?_⟩
    have number : 64 * (n / 64 % 32) + n % 64 = n := by omega
    simp only [List.cons_append, List.nil_append]
    rw [decodeFrom_ofNat (by omega) (step_between (start?_two (by omega) (by omega)) index), skip,
      decodeFrom_ofNat (by omega) (step_tail n index 1 _ []), number, back]
    rfl
  split
  · refine ⟨index + 3, ?_⟩
    have digits : (n / 64 % 64 + 128) % 64 = n / 64 % 64 := by omega
    have number : 64 * (64 * (n / 4096 % 16) + n / 64 % 64) + n % 64 = n := by omega
    simp only [List.cons_append, List.nil_append]
    rw [decodeFrom_ofNat (by omega) (step_between (start?_three (by omega)) index), skip,
      decodeFrom_ofNat (by omega)
        (step_inside (by split <;> split <;> omega) index 1 _ [tail]), skip, digits,
      decodeFrom_ofNat (by omega) (step_tail n index 2 _ []), number, back]
    rfl
  · refine ⟨index + 4, ?_⟩
    have digits : (n / 4096 % 64 + 128) % 64 = n / 4096 % 64 := by omega
    have number :
        64 * (64 * (64 * (n / 262144 % 8) + n / 4096 % 64) + n / 64 % 64) + n % 64 = n := by omega
    simp only [List.cons_append, List.nil_append]
    rw [decodeFrom_ofNat (by omega) (step_between (start?_four (by omega)) index), skip,
      decodeFrom_ofNat (by omega)
        (step_inside (by split <;> split <;> omega) index 1 _ [tail, tail]), skip, digits,
      decodeFrom_ofNat (by omega) (step_tail (n / 64) index 2 _ [tail]), skip,
      decodeFrom_ofNat (by omega) (step_tail n index 3 _ []), number, back]
    rfl

theorem decodeFrom_flatMap (s : List Char) (index : Nat) :
    decodeFrom (.between index) (s.flatMap String.utf8EncodeChar) = .ok s := by
  induction s generalizing index with
  | nil => rfl
  | cons c s ih =>
    obtain ⟨next, h⟩ := decodeFrom_utf8EncodeChar c index (s.flatMap String.utf8EncodeChar)
    rw [List.flatMap_cons, h, ih]
    rfl

/-- **A text is read back from its encoding.** -/
@[simp]
theorem decode_ofText (s : String) : decode (Bytes.ofText s) = .ok s := by
  have encoding := Bytes.ofText_ofList s.toList
  rw [String.ofList_toList] at encoding
  rw [decode, encoding, decodeFrom_flatMap, Except.map, String.ofList_toList]

end Utf8

end TokenCustody
