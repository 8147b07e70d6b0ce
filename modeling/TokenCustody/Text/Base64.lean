import TokenCustody.Bytes

/-!
# Base64 text

Three bytes are written as four symbols of the standard alphabet, and a shorter end is padded. The
reader accepts the padding of the last group in part or not at all, but refuses an end that no byte
string has: a single symbol, or bits left over that are not zero.
-/

namespace TokenCustody

namespace Base64

/-- The symbol for a number below 64. -/
def symbol (n : Nat) : Char :=
  if n < 26 then Char.ofNat ('A'.toNat + n)
  else if n < 52 then Char.ofNat ('a'.toNat + (n - 26))
  else if n < 62 then Char.ofNat ('0'.toNat + (n - 52))
  else if n = 62 then '+'
  else '/'

/-- The number that a symbol stands for. -/
def value? (c : Char) : Option Nat :=
  if 'A' ≤ c ∧ c ≤ 'Z' then some (c.toNat - 'A'.toNat)
  else if 'a' ≤ c ∧ c ≤ 'z' then some (c.toNat - 'a'.toNat + 26)
  else if '0' ≤ c ∧ c ≤ '9' then some (c.toNat - '0'.toNat + 52)
  else if c = '+' then some 62
  else if c = '/' then some 63
  else none

/-- The symbols of a byte string, padded to groups of four. -/
def symbols : Bytes → List Char
  | [] => []
  | [a] => [symbol (a.toNat / 4), symbol (a.toNat % 4 * 16), '=', '=']
  | [a, b] =>
    [symbol (a.toNat / 4), symbol (a.toNat % 4 * 16 + b.toNat / 16), symbol (b.toNat % 16 * 4), '=']
  | a :: b :: c :: r =>
    symbol (a.toNat / 4) :: symbol (a.toNat % 4 * 16 + b.toNat / 16) ::
      symbol (b.toNat % 16 * 4 + c.toNat / 64) :: symbol (c.toNat % 64) :: symbols r

/-- The byte that two final symbols stand for. -/
def lastByte? (a b : Char) : Option Bytes := do
  let m ← value? a
  let n ← value? b
  if n % 16 = 0 then some [UInt8.ofNat (m * 4 + n / 16)] else none

/-- The two bytes that three final symbols stand for. -/
def lastTwoBytes? (a b c : Char) : Option Bytes := do
  let l ← value? a
  let m ← value? b
  let n ← value? c
  if n % 4 = 0 then some [UInt8.ofNat (l * 4 + m / 16), UInt8.ofNat (m % 16 * 16 + n / 4)] else none

/-- The three bytes that four symbols stand for. -/
def group? (a b c d : Char) : Option Bytes := do
  let k ← value? a
  let l ← value? b
  let m ← value? c
  let n ← value? d
  return [UInt8.ofNat (k * 4 + l / 16), UInt8.ofNat (l % 16 * 16 + m / 4),
    UInt8.ofNat (m % 4 * 64 + n)]

/-- The bytes that a sequence of symbols stands for. -/
def ofSymbols? : List Char → Option Bytes
  | [] => some []
  | [a, b] => lastByte? a b
  | [a, b, '='] => lastByte? a b
  | [a, b, '=', '='] => lastByte? a b
  | [a, b, c] => lastTwoBytes? a b c
  | [a, b, c, '='] => lastTwoBytes? a b c
  | a :: b :: c :: d :: r => do
    let front ← group? a b c d
    let rest ← ofSymbols? r
    return front ++ rest
  | _ => none

/-- The base64 text of a byte string. -/
def encode (b : Bytes) : String :=
  String.ofList (symbols b)

/-- The bytes that a base64 text stands for. -/
def decode? (s : String) : Option Bytes :=
  ofSymbols? s.toList

/-! ### Reading what has been written -/

theorem value?_symbol {n : Nat} (h : n < 64) : value? (symbol n) = some n := by
  have all : ∀ n ∈ List.range 64, value? (symbol n) = some n := by decide
  exact all n (List.mem_range.mpr h)

theorem symbol_ne_pad {n : Nat} (h : n < 64) : symbol n ≠ '=' := by
  have all : ∀ n ∈ List.range 64, symbol n ≠ '=' := by decide
  exact all n (List.mem_range.mpr h)

theorem lastByte?_symbols (a : UInt8) :
    lastByte? (symbol (a.toNat / 4)) (symbol (a.toNat % 4 * 16)) = some [a] := by
  have ha : a.toNat < 256 := a.toNat_lt
  have byte : a.toNat / 4 * 4 + a.toNat % 4 * 16 / 16 = a.toNat := by omega
  have rest : a.toNat % 4 * 16 % 16 = 0 := by omega
  rw [lastByte?, value?_symbol (by omega), value?_symbol (by omega)]
  simp only [Option.bind_eq_bind, Option.bind_some, if_pos rest, byte, UInt8.ofNat_toNat]

theorem lastTwoBytes?_symbols (a b : UInt8) :
    lastTwoBytes? (symbol (a.toNat / 4)) (symbol (a.toNat % 4 * 16 + b.toNat / 16))
      (symbol (b.toNat % 16 * 4)) = some [a, b] := by
  have ha : a.toNat < 256 := a.toNat_lt
  have hb : b.toNat < 256 := b.toNat_lt
  have first : a.toNat / 4 * 4 + (a.toNat % 4 * 16 + b.toNat / 16) / 16 = a.toNat := by omega
  have second : (a.toNat % 4 * 16 + b.toNat / 16) % 16 * 16 + b.toNat % 16 * 4 / 4 = b.toNat := by
    omega
  have rest : b.toNat % 16 * 4 % 4 = 0 := by omega
  rw [lastTwoBytes?, value?_symbol (by omega), value?_symbol (by omega), value?_symbol (by omega)]
  simp only [Option.bind_eq_bind, Option.bind_some, if_pos rest, first, second, UInt8.ofNat_toNat]

theorem group?_symbols (a b c : UInt8) :
    group? (symbol (a.toNat / 4)) (symbol (a.toNat % 4 * 16 + b.toNat / 16))
      (symbol (b.toNat % 16 * 4 + c.toNat / 64)) (symbol (c.toNat % 64)) = some [a, b, c] := by
  have ha : a.toNat < 256 := a.toNat_lt
  have hb : b.toNat < 256 := b.toNat_lt
  have hc : c.toNat < 256 := c.toNat_lt
  have first : a.toNat / 4 * 4 + (a.toNat % 4 * 16 + b.toNat / 16) / 16 = a.toNat := by omega
  have second : (a.toNat % 4 * 16 + b.toNat / 16) % 16 * 16 +
      (b.toNat % 16 * 4 + c.toNat / 64) / 4 = b.toNat := by omega
  have third : (b.toNat % 16 * 4 + c.toNat / 64) % 4 * 64 + c.toNat % 64 = c.toNat := by omega
  rw [group?, value?_symbol (by omega), value?_symbol (by omega), value?_symbol (by omega),
    value?_symbol (by omega)]
  simp only [Option.bind_eq_bind, Option.bind_some, first, second, third, Option.pure_def,
    UInt8.ofNat_toNat]

theorem ofSymbols?_symbols (b : Bytes) : ofSymbols? (symbols b) = some b := by
  fun_induction symbols b with
  | case1 => rfl
  | case2 a => exact lastByte?_symbols a
  | case3 a b =>
    have hb : b.toNat < 256 := b.toNat_lt
    rw [ofSymbols?]
    · exact lastTwoBytes?_symbols a b
    · exact symbol_ne_pad (by omega)
  | case4 a b c r ih =>
    have hc : c.toNat < 256 := c.toNat_lt
    have last : symbol (c.toNat % 64) ≠ '=' := symbol_ne_pad (by omega)
    rw [ofSymbols?, group?_symbols, ih]
    · rfl
    all_goals simp [last]

/-- **Every byte string reads back from its text.** -/
@[simp]
theorem decode?_encode (b : Bytes) : decode? (encode b) = some b := by
  simp [decode?, encode, ofSymbols?_symbols]

end Base64

end TokenCustody
