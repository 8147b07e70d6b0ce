import Mathlib.Algebra.Order.Ring.Nat
import Mathlib.Tactic.Ring
import TokenCustody.Commission
import TokenCustody.Proofs.Inversion

/-!
# Checked arithmetic and the commission

Checked sums and differences in terms of exact ones. From these, what the commission on a deposit is
when it is charged (`Commission.total_eq_ok`), and why it is not charged otherwise
(`Commission.total_eq_error`). Up to a hundred percent, the stable share is in range
(`Commission.share_lt`), so that a charge never aborts.
-/

namespace TokenCustody

namespace Amount

theorem ofNat?_eq_none {n : ℕ} : ofNat? n = none ↔ size ≤ n := by
  rw [ofNat?]
  split_ifs with h <;> simp <;> omega

theorem add_eq_ok {a b c : Amount} : a.add b = .ok c ↔ c.val = a.val + b.val := by
  rw [add]
  cases h : ofNat? (a.val + b.val) with
  | some d =>
    have hd := ofNat?_eq_some.mp h
    simp only [Except.ok.injEq]
    exact ⟨fun hdc => hdc ▸ hd.symm, fun hc => ext (hd.symm.trans hc.symm)⟩
  | none =>
    have hn := ofNat?_eq_none.mp h
    have hc := c.val_lt
    simp only [reduceCtorEq, false_iff]
    omega

theorem add_eq_error {a b : Amount} {e : Overflow} :
    a.add b = .error e ↔ e = .sum a b ∧ size ≤ a.val + b.val := by
  rw [add]
  cases h : ofNat? (a.val + b.val) with
  | some d =>
    have hd := ofNat?_eq_some.mp h
    have hlt := d.val_lt
    simp only [reduceCtorEq, false_iff, not_and]
    omega
  | none => simp [ofNat?_eq_none.mp h, eq_comm]

theorem sub_eq_ok {a b c : Amount} : a.sub b = .ok c ↔ c.val + b.val = a.val := by
  rw [sub]
  split_ifs with h
  · rw [le_def] at h
    simp only [Except.ok.injEq]
    exact ⟨fun hc => hc ▸ Nat.sub_add_cancel h, fun hc => ext (by simp only; omega)⟩
  · rw [le_def] at h
    simp only [false_iff]
    omega

end Amount

namespace Commission

theorem hundredPercent_pos : 0 < hundredPercent.toNat := by
  decide

/-- The stable share of an amount is no more than the amount, up to a hundred percent. -/
theorem share_le (amount : Amount) {percent : UInt64} (h : percent ≤ hundredPercent) :
    share amount percent ≤ amount.val := by
  have hpercent : percent.toNat ≤ hundredPercent.toNat := UInt64.le_iff_toNat_le.mp h
  refine Nat.div_le_of_le_mul ?_
  rw [mul_comm amount.val]
  exact Nat.mul_le_mul_right _ hpercent

/-- Up to a hundred percent, the stable share is an amount. -/
theorem share_lt (amount : Amount) {percent : UInt64} (h : percent ≤ hundredPercent) :
    share amount percent < Amount.size :=
  Nat.lt_of_le_of_lt (share_le amount h) amount.val_lt

/-- A charge is the exact sum of the stable share and the fixed part. -/
theorem charge_eq_ok {amount fixed c : Amount} {percent : UInt64} :
    charge amount fixed percent = .ok c ↔ c.val = share amount percent + fixed.val := by
  rw [charge]
  cases h : Amount.ofNat? (share amount percent) with
  | none =>
    have hn := Amount.ofNat?_eq_none.mp h
    have hc := c.val_lt
    simp only [reduceCtorEq, false_iff]
    omega
  | some stable =>
    rw [Amount.ofNat?_eq_some.mp h]
    cases hsum : stable.add fixed with
    | ok d => simp [← Amount.add_eq_ok, hsum]
    | error e => simp [← Amount.add_eq_ok, hsum]

/-- A charge aborts if the stable share is too large for an amount, and is refused if only the sum
with the fixed part is. -/
theorem charge_eq_error {amount fixed : Amount} {percent : UInt64} {e : Failure Overflow} :
    charge amount fixed percent = .error e ↔
      (Amount.size ≤ share amount percent ∧ e = .aborted .multiplicationOverflow) ∨
        ∃ stable : Amount, stable.val = share amount percent ∧
          Amount.size ≤ stable.val + fixed.val ∧ e = .rejected (.sum stable fixed) := by
  rw [charge]
  cases h : Amount.ofNat? (share amount percent) with
  | none =>
    have hsize := Amount.ofNat?_eq_none.mp h
    constructor
    · intro he
      exact .inl ⟨hsize, (Except.error.inj he).symm⟩
    · rintro (⟨-, rfl⟩ | ⟨stable, hstable, -⟩)
      · rfl
      · have hlt := stable.val_lt
        omega
  | some stable =>
    have hstable := Amount.ofNat?_eq_some.mp h
    simp only [mapError_eq_error, Amount.add_eq_error]
    constructor
    · rintro ⟨_, ⟨rfl, hsum⟩, rfl⟩
      exact .inr ⟨stable, hstable.symm, hsum, rfl⟩
    · rintro (⟨hsize, -⟩ | ⟨other, hother, hsum, rfl⟩)
      · have hlt := stable.val_lt
        omega
      · obtain rfl : other = stable := Amount.ext (hother.trans hstable)
        exact ⟨_, ⟨rfl, hsum⟩, rfl⟩

/-- A deposit is charged the exact commission, and no more than its amount. -/
theorem total_eq_ok {amount fixed c : Amount} {percent : UInt64} :
    total amount fixed percent = .ok c ↔
      c.val = share amount percent + fixed.val ∧ c ≤ amount := by
  simp only [total, bind_eq_ok, mapError_eq_ok, charge_eq_ok]
  constructor
  · rintro ⟨d, hd, h⟩
    split_ifs at h with hlt
    · cases h
    · cases h
      exact ⟨hd, Nat.le_of_not_lt hlt⟩
  · rintro ⟨hc, hle⟩
    have hlt : ¬ amount < c := Nat.not_lt.mpr hle
    exact ⟨c, hc, by rw [if_neg hlt]; rfl⟩

/-- A deposit fails as its charge does, and is refused beyond that if it is charged more than
itself. -/
theorem total_eq_error {amount fixed : Amount} {percent : UInt64} {e : Failure Rejection} :
    total amount fixed percent = .error e ↔
      (Amount.size ≤ share amount percent ∧ e = .aborted .multiplicationOverflow) ∨
        (∃ stable : Amount, stable.val = share amount percent ∧
          Amount.size ≤ stable.val + fixed.val ∧ e = .rejected (.overflow (.sum stable fixed))) ∨
        ∃ c : Amount, c.val = share amount percent + fixed.val ∧ amount < c ∧
          e = .rejected (.commissionGreaterThanAmount c amount) := by
  simp only [total, bind_eq_error, mapError_eq_error, mapError_eq_ok, charge_eq_error,
    charge_eq_ok]
  constructor
  · rintro (⟨_, ⟨hsize, rfl⟩ | ⟨stable, hstable, hsum, rfl⟩, rfl⟩ | ⟨c, hc, he⟩)
    · exact .inl ⟨hsize, rfl⟩
    · exact .inr (.inl ⟨stable, hstable, hsum, rfl⟩)
    · split_ifs at he with hlt
      · exact .inr (.inr ⟨c, hc, hlt, (Except.error.inj he).symm⟩)
      · cases he
  · rintro (⟨hsize, rfl⟩ | ⟨stable, hstable, hsum, rfl⟩ | ⟨c, hc, hlt, rfl⟩)
    · exact .inl ⟨_, .inl ⟨hsize, rfl⟩, rfl⟩
    · exact .inl ⟨_, .inr ⟨stable, hstable, hsum, rfl⟩, rfl⟩
    · exact .inr ⟨c, hc, if_pos hlt⟩

end Commission

end TokenCustody
