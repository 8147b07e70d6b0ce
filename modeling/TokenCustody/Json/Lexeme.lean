import TokenCustody.Json.Quoted

/-!
# JSON lexemes

A JSON text is a sequence of lexemes. `Lexeme.chars` writes a lexeme and `Lexeme.scan?` splits a
text into lexemes: a machine that reads one character at a time, passes over blanks between lexemes,
and refuses a text with anything else in it. Lists, signs, fractions and exponents do not occur in
the documents of this library and are refused here.
-/

namespace TokenCustody

/-- A lexeme of a JSON text. -/
inductive Lexeme where
  | openBrace
  | closeBrace
  | colon
  | comma
  | null
  | bool (b : Bool)
  | number (n : Nat)
  | text (s : String)
  deriving DecidableEq

namespace Lexeme

/-- The characters of a lexeme. -/
def chars : Lexeme → List Char
  | .openBrace => ['\x7b']
  | .closeBrace => ['\x7d']
  | .colon => [':']
  | .comma => [',']
  | .null => ['n', 'u', 'l', 'l']
  | .bool true => ['t', 'r', 'u', 'e']
  | .bool false => ['f', 'a', 'l', 's', 'e']
  | .number n => Nat.toDigits 10 n
  | .text s => '"' :: Quoted.encode s.toList ++ ['"']

/-- What the scanner is in the middle of. -/
inductive Mode where
  /-- Between two lexemes. -/
  | between
  /-- In a word that goes on with `next` and `more`. -/
  | word (next : Char) (more : List Char) (lexeme : Lexeme)
  /-- In a number whose digits so far make `n`. -/
  | digits (n : Nat)
  /-- In a quoted text, with the content so far in reverse. -/
  | quoted (content : List Char)
  /-- Behind a backslash in a quoted text. -/
  | escaped (content : List Char)
  deriving DecidableEq

namespace Mode

/-- What the first character of a lexeme leads to: a mode, and the lexeme if it is complete. -/
def start? (c : Char) : Option (Mode × List Lexeme) :=
  if c = ' ' ∨ c = '\t' ∨ c = '\n' ∨ c = '\r' then some (.between, [])
  else if c = '\x7b' then some (.between, [.openBrace])
  else if c = '\x7d' then some (.between, [.closeBrace])
  else if c = ':' then some (.between, [.colon])
  else if c = ',' then some (.between, [.comma])
  else if c = '"' then some (.quoted [], [])
  else if c = 'n' then some (.word 'u' ['l', 'l'] .null, [])
  else if c = 't' then some (.word 'r' ['u', 'e'] (.bool true), [])
  else if c = 'f' then some (.word 'a' ['l', 's', 'e'] (.bool false), [])
  else if c.isDigit then some (.digits (c.toNat - '0'.toNat), [])
  else none

/-- What one character leads to: the next mode, and the lexemes that are complete with it. -/
def step? : Mode → Char → Option (Mode × List Lexeme)
  | .between, c => start? c
  | .word next more lexeme, c =>
    if c = next then
      match more with
      | [] => some (.between, [lexeme])
      | next :: more => some (.word next more lexeme, [])
    else none
  | .digits n, c =>
    if c.isDigit then
      if n = 0 then none else some (.digits (10 * n + (c.toNat - '0'.toNat)), [])
    else (start? c).map fun (mode, lexemes) => (mode, .number n :: lexemes)
  | .quoted content, c =>
    if c = '"' then
      (Quoted.decode? content.reverse).map fun s => (.between, [.text (String.ofList s)])
    else if c = '\\' then some (.escaped (c :: content), [])
    else some (.quoted (c :: content), [])
  | .escaped content, c => some (.quoted (c :: content), [])

/-- The lexemes that are complete at the end of the text. -/
def finish? : Mode → Option (List Lexeme)
  | .between => some []
  | .digits n => some [.number n]
  | _ => none

end Mode

/-- The lexemes of a text, starting in a given mode. -/
def scanFrom? : Mode → List Char → Option (List Lexeme)
  | mode, [] => mode.finish?
  | mode, c :: r =>
    (mode.step? c).bind fun (mode, lexemes) => (scanFrom? mode r).map (lexemes ++ ·)

/-- The lexemes of a text. -/
def scan? (s : List Char) : Option (List Lexeme) :=
  scanFrom? .between s

/-! ### Scanning what has been written -/

theorem scanFrom?_of_step? {mode next : Mode} {c : Char} {done : List Lexeme}
    (h : mode.step? c = some (next, done)) (r : List Char) :
    scanFrom? mode (c :: r) = (scanFrom? next r).map (done ++ ·) := by
  rw [scanFrom?, h]
  rfl

theorem scanFrom?_of_step?_nil {mode next : Mode} {c : Char} (h : mode.step? c = some (next, []))
    (r : List Char) : scanFrom? mode (c :: r) = scanFrom? next r := by
  rw [scanFrom?_of_step? h]
  simp

theorem scanFrom?_word (l : Lexeme) (next : Char) (more r : List Char) :
    scanFrom? (.word next more l) (next :: (more ++ r)) =
      (scanFrom? .between r).map (l :: ·) := by
  induction more generalizing next with
  | nil =>
    have done : (Mode.word next [] l).step? next = some (.between, [l]) := by simp [Mode.step?]
    exact scanFrom?_of_step? done r
  | cons c more ih =>
    have step : (Mode.word next (c :: more) l).step? next = some (.word c more l, []) := by
      simp [Mode.step?]
    exact (scanFrom?_of_step?_nil step _).trans (ih c)

theorem step?_between_digitChar {n : Nat} (h : n < 10) :
    Mode.between.step? (Nat.digitChar n) = some (.digits n, []) := by
  have all : ∀ n ∈ List.range 10,
      Mode.between.step? (Nat.digitChar n) = some (.digits n, []) := by decide
  exact all n (List.mem_range.mpr h)

theorem step?_digits_digitChar {n d : Nat} (hn : n ≠ 0) (hd : d < 10) :
    (Mode.digits n).step? (Nat.digitChar d) = some (.digits (10 * n + d), []) := by
  have all : ∀ d ∈ List.range 10,
      (Nat.digitChar d).isDigit ∧ (Nat.digitChar d).toNat - '0'.toNat = d := by decide
  obtain ⟨digit, value⟩ := all d (List.mem_range.mpr hd)
  simp only [Mode.step?, digit, value, if_true, if_neg hn]

theorem scanFrom?_toDigits (n : Nat) (r : List Char) :
    scanFrom? .between (Nat.toDigits 10 n ++ r) = scanFrom? (.digits n) r := by
  induction n using Nat.strongRecOn generalizing r with
  | ind n ih =>
    rw [Nat.toDigits_eq_if (by decide)]
    split
    next h => exact scanFrom?_of_step?_nil (step?_between_digitChar h) r
    next h =>
      have step := step?_digits_digitChar (n := n / 10) (d := n % 10) (by omega) (by omega)
      have sum : 10 * (n / 10) + n % 10 = n := by omega
      rw [List.append_assoc, ih (n / 10) (by omega), List.singleton_append,
        scanFrom?_of_step?_nil step, sum]

/-- A number ends where no digit follows. -/
theorem scanFrom?_digits {n : Nat} {r : List Char} (h : ∀ c ∈ r.head?, ¬ c.isDigit) :
    scanFrom? (.digits n) r = (scanFrom? .between r).map (.number n :: ·) := by
  cases r with
  | nil => rfl
  | cons c r =>
    rw [scanFrom?, scanFrom?, Mode.step?, Mode.step?, if_neg (h c rfl)]
    cases Mode.start? c with
    | none => rfl
    | some found => cases h : scanFrom? found.1 r <;> simp [h]

theorem step?_quoted {c : Char} (hq : c ≠ '"') (hb : c ≠ '\\') (content : List Char) :
    (Mode.quoted content).step? c = some (.quoted (c :: content), []) := by
  rw [Mode.step?, if_neg hq, if_neg hb]

theorem scanFrom?_escape (c : Char) (content r : List Char) :
    scanFrom? (.quoted content) ('\\' :: c :: r) =
      scanFrom? (.quoted (c :: '\\' :: content)) r :=
  (scanFrom?_of_step?_nil rfl _).trans (scanFrom?_of_step?_nil rfl _)

theorem scanFrom?_upperDigit {n : Nat} (h : n < 16) (content r : List Char) :
    scanFrom? (.quoted content) (Hex.upperDigit n :: r) =
      scanFrom? (.quoted (Hex.upperDigit n :: content)) r := by
  have all : ∀ n ∈ List.range 16, Hex.upperDigit n ≠ '"' ∧ Hex.upperDigit n ≠ '\\' := by decide
  obtain ⟨hq, hb⟩ := all n (List.mem_range.mpr h)
  exact scanFrom?_of_step?_nil (step?_quoted hq hb content) r

theorem scanFrom?_encodeChar (c : Char) (content r : List Char) :
    scanFrom? (.quoted content) (Quoted.encodeChar c ++ r) =
      scanFrom? (.quoted ((Quoted.encodeChar c).reverse ++ content)) r := by
  unfold Quoted.encodeChar
  cases h : Quoted.letter? c with
  | some letter => exact scanFrom?_escape letter content r
  | none =>
    by_cases hc : c.toNat < 0x20
    · have zero : '0' = Hex.upperDigit 0 := by decide
      simp only [hc, if_true, List.cons_append, List.nil_append, scanFrom?_escape, zero,
        scanFrom?_upperDigit (show 0 < 16 by decide),
        scanFrom?_upperDigit (show c.toNat / 16 < 16 by omega),
        scanFrom?_upperDigit (show c.toNat % 16 < 16 by omega), List.reverse_cons,
        List.reverse_nil]
    · have hq : c ≠ '"' := by rintro rfl; cases h
      simpa [hc] using
        scanFrom?_of_step?_nil (step?_quoted hq (Quoted.ne_backslash_of_letter? h) content) r

theorem scanFrom?_encode (s content r : List Char) :
    scanFrom? (.quoted content) (Quoted.encode s ++ r) =
      scanFrom? (.quoted ((Quoted.encode s).reverse ++ content)) r := by
  induction s generalizing content with
  | nil => rfl
  | cons c s ih =>
    rw [Quoted.encode, List.flatMap_cons, List.append_assoc, scanFrom?_encodeChar,
      ← Quoted.encode, ih]
    simp

/-- **A lexeme is read back from its characters**, whatever follows, unless a number is followed by
a digit. -/
theorem scanFrom?_chars (l : Lexeme) {r : List Char}
    (h : ∀ n, l = .number n → ∀ c ∈ r.head?, ¬ c.isDigit) :
    scanFrom? .between (l.chars ++ r) = (scanFrom? .between r).map (l :: ·) := by
  cases l with
  | number n => rw [chars, scanFrom?_toDigits, scanFrom?_digits (h n rfl)]
  | text s =>
    have done : (Mode.quoted (Quoted.encode s.toList).reverse).step? '"' =
        some (.between, [.text s]) := by
      simp [Mode.step?]
    simp only [chars, List.cons_append, List.append_assoc, List.nil_append]
    rw [scanFrom?_of_step?_nil rfl, scanFrom?_encode, List.append_nil, scanFrom?_of_step? done]
    rfl
  | bool b =>
    cases b with
    | false => exact (scanFrom?_of_step?_nil rfl _).trans (scanFrom?_word _ _ _ r)
    | true => exact (scanFrom?_of_step?_nil rfl _).trans (scanFrom?_word _ _ _ r)
  | null => exact (scanFrom?_of_step?_nil rfl _).trans (scanFrom?_word _ _ _ r)
  | openBrace => rfl
  | closeBrace => rfl
  | colon => rfl
  | comma => rfl

end Lexeme

end TokenCustody
