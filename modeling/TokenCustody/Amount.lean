import TokenCustody.Text.Decimal

/-!
# Token amounts

An amount is a natural number below `2 ^ 128`. Sums and differences are checked: one that leaves
the range is an `Overflow`, which remembers both operands. `Amount.excess` is the difference that
stops at zero.
-/

namespace TokenCustody

/-- The number of amounts, which is `2 ^ 128`. -/
abbrev Amount.size : Nat := 340282366920938463463374607431768211456

/-- A token amount: a natural number below `2 ^ 128`. -/
structure Amount where
  /-- The number of the smallest units. -/
  val : Nat
  val_lt : val < Amount.size
  deriving DecidableEq

/-- A sum or a difference that is no amount. -/
inductive Overflow where
  /-- A sum too large for an amount. -/
  | sum (left right : Amount)
  /-- A difference below zero. -/
  | difference (left right : Amount)
  deriving DecidableEq

namespace Amount

/-- A number as an amount, if it is small enough. -/
def ofNat? (n : Nat) : Option Amount :=
  if h : n < size then some ⟨n, h⟩ else none

instance : Zero Amount := ⟨⟨0, by decide⟩⟩

instance : Inhabited Amount := ⟨0⟩

instance : LE Amount := ⟨fun a b => a.val ≤ b.val⟩

instance : LT Amount := ⟨fun a b => a.val < b.val⟩

instance (a b : Amount) : Decidable (a ≤ b) := inferInstanceAs (Decidable (a.val ≤ b.val))

instance (a b : Amount) : Decidable (a < b) := inferInstanceAs (Decidable (a.val < b.val))

/-- The sum of two amounts. -/
def add (a b : Amount) : Except Overflow Amount :=
  match ofNat? (a.val + b.val) with
  | some c => .ok c
  | none => .error (.sum a b)

/-- The difference of two amounts. -/
def sub (a b : Amount) : Except Overflow Amount :=
  if b ≤ a then .ok ⟨a.val - b.val, Nat.lt_of_le_of_lt (Nat.sub_le ..) a.val_lt⟩
  else .error (.difference a b)

/-- What the first amount has more than the second: their difference, or zero. -/
def excess (a b : Amount) : Amount :=
  ⟨a.val - b.val, Nat.lt_of_le_of_lt (Nat.sub_le ..) a.val_lt⟩

/-- The decimal text of an amount. -/
def text (a : Amount) : String :=
  Decimal.text a.val

@[ext]
theorem ext {a b : Amount} (h : a.val = b.val) : a = b := by
  cases a; cases b; simp_all

@[simp]
theorem val_zero : (0 : Amount).val = 0 := rfl

theorem le_def {a b : Amount} : a ≤ b ↔ a.val ≤ b.val := Iff.rfl

theorem lt_def {a b : Amount} : a < b ↔ a.val < b.val := Iff.rfl

@[simp]
theorem val_excess (a b : Amount) : (a.excess b).val = a.val - b.val := rfl

@[simp]
theorem ofNat?_val (a : Amount) : ofNat? a.val = some a :=
  dif_pos a.val_lt

theorem ofNat?_eq_some {n : Nat} {a : Amount} : ofNat? n = some a ↔ n = a.val := by
  constructor
  · intro h
    simp only [ofNat?] at h
    split at h
    · exact congrArg Amount.val (Option.some.inj h)
    · cases h
  · rintro rfl
    exact ofNat?_val a

end Amount

/-- The message for a sum or difference out of range. -/
def Overflow.message : Overflow → String
  | .sum a b => s!"Cannot Add with {a.text} and {b.text}"
  | .difference a b => s!"Cannot Sub with {a.text} and {b.text}"

end TokenCustody
