import TokenCustody.Json.Lexeme

/-!
# JSON documents

All documents of the contract have one of three shapes: a bare scalar, a record of named scalars, or
a variant, which is a record under a single name. `Document.render` writes a document without
blanks; `Document.parse?` reads one with any blanks between its lexemes. Names may repeat at this
level: it is the reading of a record that refuses them (`TokenCustody.Json.Codec`).
-/

namespace TokenCustody

/-- A value that is not composed of others. -/
inductive Scalar where
  | null
  | bool (b : Bool)
  | number (n : Nat)
  | text (s : String)
  deriving DecidableEq

/-- Named scalars in the order of their writing. -/
abbrev Record := List (String × Scalar)

/-- A JSON document. -/
inductive Document where
  /-- A scalar on its own. -/
  | scalar (s : Scalar)
  /-- A record. -/
  | record (fields : Record)
  /-- A record under a name. -/
  | variant (name : String) (fields : Record)
  deriving DecidableEq

namespace Scalar

/-- The lexeme of a scalar. -/
def lexeme : Scalar → Lexeme
  | .null => .null
  | .bool b => .bool b
  | .number n => .number n
  | .text s => .text s

/-- The scalar that is a single lexeme. -/
def ofLexeme? : Lexeme → Option Scalar
  | .null => some .null
  | .bool b => some (.bool b)
  | .number n => some (.number n)
  | .text s => some (.text s)
  | _ => none

end Scalar

namespace Record

/-- The lexemes of the fields behind the first one, up to the closing brace. -/
def moreLexemes : Record → List Lexeme
  | [] => [.closeBrace]
  | (name, value) :: r => .comma :: .text name :: .colon :: value.lexeme :: moreLexemes r

/-- The lexemes of a record behind the opening brace. -/
def innerLexemes : Record → List Lexeme
  | [] => [.closeBrace]
  | (name, value) :: r => .text name :: .colon :: value.lexeme :: moreLexemes r

/-- The lexemes of a record. -/
def lexemes (r : Record) : List Lexeme :=
  .openBrace :: r.innerLexemes

/-- The fields behind the first one, up to the closing brace, and the lexemes behind it. -/
def ofMoreLexemes? : List Lexeme → Option (Record × List Lexeme)
  | .closeBrace :: rest => some ([], rest)
  | .comma :: .text name :: .colon :: lexeme :: rest => do
    let value ← Scalar.ofLexeme? lexeme
    let (fields, rest) ← ofMoreLexemes? rest
    return ((name, value) :: fields, rest)
  | _ => none

/-- The fields behind an opening brace, and the lexemes behind the closing one. -/
def ofInnerLexemes? : List Lexeme → Option (Record × List Lexeme)
  | .closeBrace :: rest => some ([], rest)
  | .text name :: .colon :: lexeme :: rest => do
    let value ← Scalar.ofLexeme? lexeme
    let (fields, rest) ← ofMoreLexemes? rest
    return ((name, value) :: fields, rest)
  | _ => none

end Record

namespace Document

/-- The lexemes of a document. -/
def lexemes : Document → List Lexeme
  | .scalar s => [s.lexeme]
  | .record fields => fields.lexemes
  | .variant name fields => .openBrace :: .text name :: .colon :: fields.lexemes ++ [.closeBrace]

/-- The document that a sequence of lexemes stands for. -/
def ofLexemes? : List Lexeme → Option Document
  | [lexeme] => (Scalar.ofLexeme? lexeme).map .scalar
  | .openBrace :: .text name :: .colon :: .openBrace :: rest =>
    match Record.ofInnerLexemes? rest with
    | some (fields, [.closeBrace]) => some (.variant name fields)
    | _ => none
  | .openBrace :: rest =>
    match Record.ofInnerLexemes? rest with
    | some (fields, []) => some (.record fields)
    | _ => none
  | _ => none

/-- The text of a document. -/
def render (d : Document) : String :=
  String.ofList (d.lexemes.flatMap Lexeme.chars)

/-- The document that a text stands for. -/
def parse? (s : String) : Option Document :=
  (Lexeme.scan? s.toList).bind ofLexemes?

end Document

/-! ### Reading what has been written -/

@[simp]
theorem Scalar.ofLexeme?_lexeme (s : Scalar) : ofLexeme? s.lexeme = some s := by
  cases s <;> rfl

namespace Record

@[simp]
theorem ofMoreLexemes?_moreLexemes (r : Record) (rest : List Lexeme) :
    ofMoreLexemes? (r.moreLexemes ++ rest) = some (r, rest) := by
  induction r with
  | nil => rfl
  | cons field r ih => simp [moreLexemes, ofMoreLexemes?, ih]

/-- The characters of the fields behind the first one, which also end a number in front of them. -/
theorem scanFrom?_moreLexemes (r : Record) (rest : List Char) :
    (∀ c ∈ (r.moreLexemes.flatMap Lexeme.chars ++ rest).head?, ¬ c.isDigit) ∧
      Lexeme.scanFrom? .between (r.moreLexemes.flatMap Lexeme.chars ++ rest) =
        (Lexeme.scanFrom? .between rest).map (r.moreLexemes ++ ·) := by
  induction r with
  | nil =>
    refine ⟨by simp [moreLexemes, Lexeme.chars, Char.isDigit], ?_⟩
    simpa [moreLexemes] using Lexeme.scanFrom?_chars .closeBrace (r := rest) (by simp)
  | cons field r ih =>
    refine ⟨by simp [moreLexemes, Lexeme.chars, Char.isDigit], ?_⟩
    simp only [moreLexemes, List.flatMap_cons, List.append_assoc]
    rw [Lexeme.scanFrom?_chars .comma (by simp), Lexeme.scanFrom?_chars (.text _) (by simp),
      Lexeme.scanFrom?_chars .colon (by simp), Lexeme.scanFrom?_chars _ (fun _ _ => ih.1), ih.2]
    simp [Function.comp_def]

theorem scanFrom?_lexemes (r : Record) (rest : List Char) :
    Lexeme.scanFrom? .between (r.lexemes.flatMap Lexeme.chars ++ rest) =
      (Lexeme.scanFrom? .between rest).map (r.lexemes ++ ·) := by
  simp only [lexemes, List.flatMap_cons, List.append_assoc]
  rw [Lexeme.scanFrom?_chars .openBrace (by simp)]
  cases r with
  | nil =>
    simp only [innerLexemes, List.flatMap_cons, List.flatMap_nil, List.append_nil]
    rw [Lexeme.scanFrom?_chars .closeBrace (by simp)]
    simp [Function.comp_def]
  | cons field r =>
    obtain ⟨ends, more⟩ := scanFrom?_moreLexemes r rest
    simp only [innerLexemes, List.flatMap_cons, List.append_assoc]
    rw [Lexeme.scanFrom?_chars (.text _) (by simp), Lexeme.scanFrom?_chars .colon (by simp),
      Lexeme.scanFrom?_chars _ (fun _ _ => ends), more]
    simp [Function.comp_def]

@[simp]
theorem ofInnerLexemes?_innerLexemes (r : Record) (rest : List Lexeme) :
    ofInnerLexemes? (r.innerLexemes ++ rest) = some (r, rest) := by
  cases r with
  | nil => rfl
  | cons field r => simp [innerLexemes, ofInnerLexemes?]

end Record

namespace Document

theorem scan?_lexemes (d : Document) :
    Lexeme.scan? (d.lexemes.flatMap Lexeme.chars) = some d.lexemes := by
  unfold Lexeme.scan?
  cases d with
  | scalar s =>
    simpa [lexemes, Lexeme.scanFrom?, Lexeme.Mode.finish?] using
      Lexeme.scanFrom?_chars s.lexeme (r := []) (by simp)
  | record fields =>
    simpa [lexemes, Lexeme.scanFrom?, Lexeme.Mode.finish?] using
      fields.scanFrom?_lexemes []
  | variant name fields =>
    simp only [lexemes, List.cons_append, List.flatMap_cons, List.flatMap_append,
      List.flatMap_nil]
    rw [Lexeme.scanFrom?_chars .openBrace (by simp), Lexeme.scanFrom?_chars (.text _) (by simp),
      Lexeme.scanFrom?_chars .colon (by simp), fields.scanFrom?_lexemes,
      Lexeme.scanFrom?_chars .closeBrace (by simp)]
    simp [Lexeme.scanFrom?, Lexeme.Mode.finish?]

theorem ofLexemes?_lexemes (d : Document) : ofLexemes? d.lexemes = some d := by
  cases d with
  | scalar s => simp [lexemes, ofLexemes?]
  | record fields =>
    have inner := fields.ofInnerLexemes?_innerLexemes []
    rw [List.append_nil] at inner
    rw [lexemes, Record.lexemes, ofLexemes?, inner]
    · rcases fields with _ | ⟨_, _⟩ <;> simp [Record.innerLexemes]
    · rcases fields with _ | ⟨⟨_, value⟩, _⟩
      · simp [Record.innerLexemes]
      · cases value <;> simp [Record.innerLexemes, Scalar.lexeme]
  | variant name fields =>
    simp [lexemes, Record.lexemes, ofLexemes?]

/-- **A document is read back from its text.** -/
@[simp]
theorem parse?_render (d : Document) : parse? d.render = some d := by
  simp [parse?, render, scan?_lexemes, ofLexemes?_lexemes]

end Document

end TokenCustody
