import Mathlib.Algebra.Group.Action.Defs
import Mathlib.Algebra.Order.BigOperators.Group.List
import TokenCustody.Proofs.Arithmetic

/-!
# Splitting a deposit

The commission on a deposit is rounded down, so a user who makes several small deposits in place of
a large one may pay less. How much less is known exactly: rounding leaves a rest of each share
(`Commission.rounding`), and the whole units in the rests of all pieces are what is charged on the
whole besides (`Commission.charge_eq_of_split`). Each rest is less than a unit, so `k` pieces save
at most `k - 1` units (`Commission.splitting_saves_at_most_rounding`).

The fixed parts are charged unit by unit and so save nothing. If the charge on the whole is in
range, then so are the charges on its pieces (`Commission.exists_charges`).
-/

namespace TokenCustody

namespace Commission

/-- The rest that rounding down leaves of the share of an amount, in ten-thousandths of a unit. -/
def rounding (amount : Amount) (percent : UInt64) : ℕ :=
  amount.val * percent.toNat % hundredPercent.toNat

/-- A part of a deposit that is deposited on its own. -/
structure Piece where
  amount : Amount
  /-- The fixed part of the commission on it. -/
  fixed : Amount
  deriving DecidableEq

/-- A piece is split into others: their amounts and their fixed parts add up. -/
structure Piece.SplitsInto (whole : Piece) (pieces : List Piece) : Prop where
  amount_eq : whole.amount.val = (pieces.map (·.amount.val)).sum
  fixed_eq : whole.fixed.val = (pieces.map (·.fixed.val)).sum

/-- The charge on a piece. -/
def Piece.charge (percent : UInt64) (piece : Piece) : Except (Failure Overflow) Amount :=
  Commission.charge piece.amount piece.fixed percent

/-- The whole units in the rests of all pieces. -/
def saved (percent : UInt64) (pieces : List Piece) : ℕ :=
  (pieces.map (rounding ·.amount percent)).sum / hundredPercent.toNat

variable {percent : UInt64} {whole : Piece} {pieces : List Piece}

/-! ### What rounding leaves -/

/-- The share of an amount and its rest make up the exact share. -/
theorem share_add_rounding (amount : Amount) (percent : UInt64) :
    hundredPercent.toNat * share amount percent + rounding amount percent =
      amount.val * percent.toNat :=
  Nat.div_add_mod ..

/-- The shares of all pieces and their rests make up the exact share of the sum. -/
theorem sum_share_add_sum_rounding (pieces : List Piece) (percent : UInt64) :
    hundredPercent.toNat * (pieces.map (share ·.amount percent)).sum +
        (pieces.map (rounding ·.amount percent)).sum =
      (pieces.map (·.amount.val)).sum * percent.toNat := by
  induction pieces with
  | nil => simp
  | cons piece pieces ih =>
    have hpiece := share_add_rounding piece.amount percent
    simp only [List.map_cons, List.sum_cons, Nat.mul_add, Nat.add_mul]
    omega

/-- **The share of the whole** exceeds those of the pieces by the whole units in their rests. -/
theorem share_eq_of_split (h : whole.SplitsInto pieces) :
    share whole.amount percent =
      (pieces.map (share ·.amount percent)).sum + saved percent pieces := by
  rw [share, h.amount_eq, ← sum_share_add_sum_rounding, Nat.mul_add_div hundredPercent_pos]
  rfl

/-- Each rest is less than a unit, so fewer units are saved than there are pieces. -/
theorem saved_le (percent : UInt64) (pieces : List Piece) :
    saved percent pieces ≤ pieces.length - 1 := by
  have hpiece : ∀ n ∈ pieces.map (rounding ·.amount percent), n ≤ hundredPercent.toNat - 1 := by
    rintro _ hn
    obtain ⟨piece, -, rfl⟩ := List.mem_map.mp hn
    exact Nat.le_sub_one_of_lt (Nat.mod_lt _ hundredPercent_pos)
  have hsum := List.sum_le_card_nsmul _ _ hpiece
  have hhundred : hundredPercent.toNat = 10000 := rfl
  rw [List.length_map, smul_eq_mul, hhundred] at hsum
  rw [saved, hhundred]
  omega

/-! ### What is charged -/

/-- Pieces whose charges add up to an amount are all charged, each exactly. -/
theorem exists_charges
    (h : (pieces.map fun piece => share piece.amount percent + piece.fixed.val).sum <
      Amount.size) :
    ∃ charges, pieces.mapM (Piece.charge percent) = .ok charges ∧
      (charges.map Amount.val).sum =
        (pieces.map fun piece => share piece.amount percent + piece.fixed.val).sum := by
  induction pieces with
  | nil => exact ⟨[], rfl, rfl⟩
  | cons piece pieces ih =>
    rw [List.map_cons, List.sum_cons] at h
    obtain ⟨charges, hcharges, hsum⟩ := ih (by omega)
    let c : Amount := ⟨share piece.amount percent + piece.fixed.val, by omega⟩
    have hc : piece.charge percent = .ok c := charge_eq_ok.mpr rfl
    refine ⟨c :: charges, ?_, ?_⟩
    · rw [List.mapM_cons, hc, hcharges]
      rfl
    · rw [List.map_cons, List.sum_cons, hsum, List.map_cons, List.sum_cons]

/-- The charge on the whole, in terms of the pieces. -/
theorem charge_eq_of_split {c : Amount} (h : whole.SplitsInto pieces)
    (hc : whole.charge percent = .ok c) :
    c.val = (pieces.map fun piece => share piece.amount percent + piece.fixed.val).sum +
      saved percent pieces := by
  rw [charge_eq_ok.mp hc, share_eq_of_split h, h.fixed_eq, List.sum_map_add]
  omega

/-- **Splitting a deposit saves at most the rounding.** If the whole is charged, which up to a
hundred percent it is if nothing is fixed, then all its pieces are; together they are charged no
more than the whole, and less by at most one unit for each piece but one. -/
theorem splitting_saves_at_most_rounding (percent : UInt64) (hsplit : whole.SplitsInto pieces) :
    (percent ≤ hundredPercent → whole.fixed = 0 → ∃ c, whole.charge percent = .ok c) ∧
      ∀ c, whole.charge percent = .ok c →
        ∃ charges, pieces.mapM (Piece.charge percent) = .ok charges ∧
          (charges.map Amount.val).sum ≤ c.val ∧
          c.val ≤ (charges.map Amount.val).sum + (pieces.length - 1) := by
  constructor
  · intro hpercent hfixed
    refine ⟨⟨share whole.amount percent, share_lt _ hpercent⟩, charge_eq_ok.mpr ?_⟩
    rw [hfixed, Amount.val_zero, Nat.add_zero]
  · intro c hc
    have hwhole := charge_eq_of_split hsplit hc
    have hsize : (pieces.map fun piece => share piece.amount percent + piece.fixed.val).sum <
        Amount.size :=
      Nat.lt_of_le_of_lt (hwhole ▸ Nat.le_add_right ..) c.val_lt
    obtain ⟨charges, hcharges, hsum⟩ := exists_charges hsize
    rw [← hsum] at hwhole
    refine ⟨charges, hcharges, ?_, ?_⟩
    · exact hwhole ▸ Nat.le_add_right ..
    · rw [hwhole]
      exact Nat.add_le_add_left (saved_le percent pieces) _

/-- Three deposits of 9999 units and a fixed unit each, at a hundredth of a percent, are charged the
fixed units only, since the rest of each share is just short of a unit. As one deposit they would
be charged two units more. -/
theorem splitting_saves_at_most_rounding_of_three :
    let piece : Piece := ⟨⟨9999, by decide⟩, ⟨1, by decide⟩⟩
    let whole : Piece := ⟨⟨29997, by decide⟩, ⟨3, by decide⟩⟩
    let pieces := [piece, piece, piece]
    let c : Amount := ⟨5, by decide⟩
    whole.SplitsInto pieces ∧ whole.charge 1 = .ok c ∧
      ∃ charges, pieces.mapM (Piece.charge 1) = .ok charges ∧
        (charges.map Amount.val).sum ≤ c.val ∧ c.val ≤ (charges.map Amount.val).sum + 2 ∧
        (charges.map Amount.val).sum = 3 := by
  intro piece whole pieces c
  have hsplit : whole.SplitsInto pieces := ⟨by decide, by decide⟩
  have hc : whole.charge 1 = .ok c := by decide
  obtain ⟨-, hbounds⟩ := splitting_saves_at_most_rounding 1 hsplit
  obtain ⟨charges, hcharges, hle, hge⟩ := hbounds c hc
  have hthree : pieces.mapM (Piece.charge 1) = .ok [piece.fixed, piece.fixed, piece.fixed] := by
    decide
  obtain rfl := Except.ok.inj (hthree.symm.trans hcharges)
  exact ⟨hsplit, hc, _, hcharges, hle, hge, rfl⟩

end Commission

end TokenCustody
