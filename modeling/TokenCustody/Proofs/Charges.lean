import Mathlib.Algebra.Order.Floor.Div
import TokenCustody.Proofs.Arithmetic

/-!
# Commission at every limit

How a charge ends, for all amounts and all percentages, is a matter of two exact numbers, the stable
share and its sum with the fixed part: an abort if the share is too large for an amount, a refusal
if only the sum is, and the sum otherwise. A deposit is charged the same, and refused besides if the
sum is greater than itself (`Commission.exact_at_every_limit`).

Whether a deposit is accepted does not get clearer from that sum when several of its terms change at
once, since the share grows with the amount too. But up to a hundred percent, what is left of an
amount behind its share is the share of the complementary percentage, rounded up
(`Commission.share_add_rest`), and the fixed part is accepted up to this rest, which grows with the
amount and shrinks with the percentage (`Commission.Accepted.mono`).
-/

namespace TokenCustody

namespace Commission

variable {amount amount' fixed fixed' : Amount} {percent percent' : UInt64}

/-! ### Acceptance -/

/-- A commission is accepted: the deposit is charged it. -/
def Accepted (amount fixed : Amount) (percent : UInt64) : Prop :=
  ∃ c, total amount fixed percent = .ok c

theorem accepted_iff :
    Accepted amount fixed percent ↔ share amount percent + fixed.val ≤ amount.val := by
  constructor
  · rintro ⟨c, hc⟩
    obtain ⟨hsum, hle⟩ := total_eq_ok.mp hc
    exact hsum ▸ hle
  · intro hle
    let c : Amount := ⟨share amount percent + fixed.val, Nat.lt_of_le_of_lt hle amount.val_lt⟩
    exact ⟨c, total_eq_ok.mpr ⟨rfl, hle⟩⟩

/-- What is left of an amount behind its stable share: the share of the complementary percentage,
rounded up. -/
def rest (amount : Amount) (percent : UInt64) : ℕ :=
  amount.val * (hundredPercent.toNat - percent.toNat) ⌈/⌉ hundredPercent.toNat

/-- **A share that is rounded down** and the complementary one that is rounded up make the whole. -/
theorem share_add_rest (amount : Amount) (h : percent ≤ hundredPercent) :
    share amount percent + rest amount percent = amount.val := by
  have hpercent : percent.toNat ≤ hundredPercent.toNat := UInt64.le_iff_toNat_le.mp h
  have hwhole : amount.val * percent.toNat + amount.val * (hundredPercent.toNat - percent.toNat) =
      amount.val * hundredPercent.toNat := by
    rw [← Nat.mul_add, Nat.add_sub_cancel' hpercent]
  have hhundred : hundredPercent.toNat = 10000 := rfl
  rw [share, rest, Nat.ceilDiv_eq_add_pred_div]
  -- rounding down and rounding up are off by the same part of the divisor
  rw [hhundred] at hwhole ⊢
  omega

/-- **Up to a hundred percent**, a deposit is accepted if its fixed part is no more than the
rest. -/
theorem accepted_iff_le_rest (h : percent ≤ hundredPercent) :
    Accepted amount fixed percent ↔ fixed.val ≤ rest amount percent := by
  rw [accepted_iff, ← share_add_rest amount h]
  exact Nat.add_le_add_iff_left

/-- The rest grows with the amount and shrinks with the percentage. -/
theorem rest_mono (hamount : amount ≤ amount') (hpercent : percent' ≤ percent) :
    rest amount percent ≤ rest amount' percent' := by
  have hcomplement : hundredPercent.toNat - percent.toNat ≤
      hundredPercent.toNat - percent'.toNat :=
    Nat.sub_le_sub_left (UInt64.le_iff_toNat_le.mp hpercent) _
  exact (gc_mul_ceilDiv hundredPercent_pos).monotone_l (Nat.mul_le_mul hamount hcomplement)

/-- **Acceptance is monotone**: up to a hundred percent, it is kept by a greater amount, a smaller
fixed part and a smaller percentage. -/
theorem Accepted.mono (haccepted : Accepted amount fixed percent) (h : percent ≤ hundredPercent)
    (hamount : amount ≤ amount') (hfixed : fixed' ≤ fixed) (hpercent : percent' ≤ percent) :
    Accepted amount' fixed' percent' := by
  have hpercent' : percent' ≤ hundredPercent := UInt64.le_trans hpercent h
  rw [accepted_iff_le_rest h] at haccepted
  rw [accepted_iff_le_rest hpercent']
  calc
    fixed'.val ≤ fixed.val := hfixed
    _ ≤ rest amount percent := haccepted
    _ ≤ rest amount' percent' := rest_mono hamount hpercent

/-- Beyond a hundred percent, a greater amount may be refused where a smaller one is accepted. -/
example : total ⟨1, by decide⟩ 0 10001 = .ok ⟨1, by decide⟩ ∧
    total ⟨10000, by decide⟩ 0 10001 = .error (.rejected
      (.commissionGreaterThanAmount ⟨10001, by decide⟩ ⟨10000, by decide⟩)) := by
  decide

/-! ### Exactness -/

/-- Up to a hundred percent, a charge does not abort. -/
theorem charge_ne_aborted (h : percent ≤ hundredPercent) (cause : Abort) :
    charge amount fixed percent ≠ .error (.aborted cause) := by
  intro he
  rcases charge_eq_error.mp he with ⟨hsize, -⟩ | ⟨stable, -, -, hrejected⟩
  · exact Nat.not_le.mpr (share_lt amount h) hsize
  · cases hrejected

/-- Neither does a deposit. -/
theorem total_ne_aborted (h : percent ≤ hundredPercent) (cause : Abort) :
    total amount fixed percent ≠ .error (.aborted cause) := by
  intro he
  rcases total_eq_error.mp he with ⟨hsize, -⟩ | ⟨stable, -, -, hrejected⟩ | ⟨c, -, -, hrejected⟩
  · exact Nat.not_le.mpr (share_lt amount h) hsize
  · cases hrejected
  · cases hrejected

/-- **The commission is exact at every limit.** For all amounts and all percentages, with the exact
share `q`: a charge aborts if `q` is no amount, is refused with the sum of `q` and the fixed part if
only that sum is no amount, and is that sum otherwise; and a deposit is charged the same, and
refused with its charge if the charge is greater than itself. Up to a hundred percent, nothing
aborts, a deposit is accepted if its fixed part is no more than the complementary share, rounded up,
and acceptance is kept by a greater amount, a smaller fixed part and a smaller percentage. -/
theorem exact_at_every_limit (amount fixed : Amount) (percent : UInt64) :
    let q := amount.val * percent.toNat / 10000
    (∀ c, charge amount fixed percent = .ok c ↔ c.val = q + fixed.val) ∧
      (∀ e, charge amount fixed percent = .error e ↔
        (Amount.size ≤ q ∧ e = .aborted .multiplicationOverflow) ∨
          ∃ stable : Amount, stable.val = q ∧ Amount.size ≤ stable.val + fixed.val ∧
            e = .rejected (.sum stable fixed)) ∧
      (∀ c, total amount fixed percent = .ok c ↔ c.val = q + fixed.val ∧ c ≤ amount) ∧
      (∀ e, total amount fixed percent = .error e ↔
        (Amount.size ≤ q ∧ e = .aborted .multiplicationOverflow) ∨
          (∃ stable : Amount, stable.val = q ∧ Amount.size ≤ stable.val + fixed.val ∧
            e = .rejected (.overflow (.sum stable fixed))) ∨
          ∃ c : Amount, c.val = q + fixed.val ∧ amount < c ∧
            e = .rejected (.commissionGreaterThanAmount c amount)) ∧
      (percent ≤ hundredPercent →
        (∀ cause, charge amount fixed percent ≠ .error (.aborted cause)) ∧
        (∀ cause, total amount fixed percent ≠ .error (.aborted cause)) ∧
        (Accepted amount fixed percent ↔
          fixed.val ≤ amount.val * (10000 - percent.toNat) ⌈/⌉ 10000) ∧
        (Accepted amount fixed percent →
          ∀ amount' fixed' percent', amount ≤ amount' → fixed' ≤ fixed → percent' ≤ percent →
            Accepted amount' fixed' percent')) := by
  intro q
  refine ⟨fun c => charge_eq_ok, fun e => charge_eq_error, fun c => total_eq_ok,
    fun e => total_eq_error, fun hpercent => ⟨charge_ne_aborted hpercent,
      total_ne_aborted hpercent, accepted_iff_le_rest hpercent, ?_⟩⟩
  intro haccepted amount' fixed' percent' hamount hfixed hpercent'
  exact haccepted.mono hpercent hamount hfixed hpercent'

/-- Of the greatest amount, the whole and one unit more is out of range, and more than the whole
aborts. One unit may go as commission as a whole, but not twice; and since that is accepted, so are
four percent of the greatest amount. -/
theorem exact_at_every_limit_of_most :
    let most : Amount := ⟨Amount.size - 1, by decide⟩
    let one : Amount := ⟨1, by decide⟩
    hundredPercent ≤ hundredPercent ∧
      charge most one hundredPercent = .error (.rejected (.sum most one)) ∧
      charge most 0 10001 = .error (.aborted .multiplicationOverflow) ∧
      total one one hundredPercent =
        .error (.rejected (.commissionGreaterThanAmount ⟨2, by decide⟩ one)) ∧
      Accepted one 0 hundredPercent ∧ Accepted most 0 400 := by
  intro most one
  have hhundred : hundredPercent ≤ hundredPercent := UInt64.le_refl _
  obtain ⟨-, hsum, -, -, -⟩ := exact_at_every_limit most one hundredPercent
  obtain ⟨-, haborts, -, -, -⟩ := exact_at_every_limit most 0 10001
  obtain ⟨-, -, -, hrefused, -⟩ := exact_at_every_limit one one hundredPercent
  obtain ⟨-, -, haccepted, hmono⟩ := (exact_at_every_limit one 0 hundredPercent).2.2.2.2 hhundred
  have hone : Accepted one 0 hundredPercent := haccepted.mpr (by decide)
  exact ⟨hhundred, (hsum _).mpr (.inr ⟨most, by decide, by decide, rfl⟩),
    (haborts _).mpr (.inl ⟨by decide, rfl⟩),
    (hrefused _).mpr (.inr (.inr ⟨⟨2, by decide⟩, by decide, by decide, rfl⟩)), hone,
    hmono hone most 0 400 (by decide) (by decide) (by decide)⟩

end Commission

end TokenCustody
