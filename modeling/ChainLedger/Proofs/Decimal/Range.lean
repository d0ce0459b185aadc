import ChainLedger.Proofs.Decimal.Difference
import Mathlib.Algebra.Order.Field.Rat
import Mathlib.Tactic.GCongr

/-!
# Results within the decimal range

An exact result has a decimal as soon as it is not above the greatest decimal
by value: dropping all of its fraction digits would do (`exists_fit?`). So a
difference of two numbers that are not negative always exists
(`exists_sub?`), and a product exists if it is in range by value
(`exists_mul?`). Rounding also leaves a difference that is not negative where
it is (`zero_le_sub?`).
-/

namespace ChainLedger

-- A power is the one of the core library, whatever other structure is in scope.
attribute [local instance (2000)] instPowNat

namespace Decimal

variable {a b d : Decimal} {c : Int} {s k : Nat}

/-- The greatest coefficient. -/
abbrev maxCoeff : Nat := coeffBound - 1

theorem digits_le_maxCoeff (d : Decimal) : d.digits ≤ maxCoeff :=
  Nat.le_sub_one_of_lt d.digits_lt

/-- The number without its sign. -/
theorem abs_toRat (d : Decimal) : |d.toRat| = (d.digits : Rat) / ((10 ^ d.scale : Nat) : Rat) := by
  rw [toRat, abs_div, Nat.abs_cast, ← natAbs_coeff, Nat.cast_natAbs, Int.cast_abs]

theorem coeff_nonneg_iff : 0 ≤ d.coeff ↔ 0 ≤ d.toRat := by
  rw [← not_lt_zero_iff, lt_zero_iff, not_lt]

theorem isZero_of_toRat (h : d.toRat = 0) : d.isZero = true := by
  have hle : d.coeff ≤ 0 := (le_zero_iff d).mp (le_iff.mpr (by rw [h, toRat_zero]))
  have hge : 0 ≤ d.coeff := coeff_nonneg_iff.mpr h.ge
  have hzero : d.digits = 0 := (coeff_eq_zero_iff d).mp (by omega)
  simp [isZero, hzero]

/-- No decimal stands for more than the greatest coefficient. -/
theorem abs_toRat_le (d : Decimal) : |d.toRat| ≤ (maxCoeff : Rat) := by
  have hunit : (1 : Rat) ≤ ((10 ^ d.scale : Nat) : Rat) :=
    Nat.one_le_cast.mpr (Nat.one_le_pow _ _ (by decide))
  rw [abs_toRat]
  exact (div_le_self (Nat.cast_nonneg _) hunit).trans (Nat.cast_le.mpr d.digits_le_maxCoeff)

theorem toRat_hundred : hundred.toRat = 100 := by
  norm_num [toRat, hundred, coeff]

/-! ## Rounding into the range -/

/-- An integer that is not below the exact number is not below the rounded one. -/
theorem dropDigits_le {m : Int} (h : c ≤ m * 10 ^ k) : dropDigits c k ≤ m := by
  have hneg : -m ≤ dropDigits (-c) k := le_dropDigits (by rw [Int.neg_mul]; omega)
  rw [dropDigits_neg] at hneg
  omega

theorem natAbs_dropDigits_le {m : Nat} (h : c.natAbs ≤ m * 10 ^ k) :
    (dropDigits c k).natAbs ≤ m := by
  have hcast : ((m * 10 ^ k : Nat) : Int) = (m : Int) * 10 ^ k := by push_cast; rfl
  have hle : dropDigits c k ≤ m := dropDigits_le (by omega)
  have hge : -(m : Int) ≤ dropDigits c k := le_dropDigits (by rw [Int.neg_mul]; omega)
  omega

theorem exists_ofParts? (hc : c.natAbs ≤ maxCoeff) (hs : s ≤ maxScale) :
    ∃ d, ofParts? c s = some d := by
  have hlt : c.natAbs < 2 ^ (96 : Nat) := Nat.lt_of_le_of_lt hc (by decide)
  exact ⟨_, dif_pos ⟨hlt, hs⟩⟩

theorem exists_fitFrom {n k : Nat} (hs : s - (k + n) ≤ maxScale)
    (h : c.natAbs ≤ maxCoeff * 10 ^ (k + n)) : ∃ d, fitFrom c s n k = some d := by
  induction n generalizing k with
  | zero => exact exists_ofParts? (natAbs_dropDigits_le h) hs
  | succ n ih =>
    rw [fitFrom]
    split
    · next d _ => exact ⟨d, rfl⟩
    · rw [← Nat.add_assoc, Nat.add_right_comm] at hs h
      exact ih hs h

/-- **An exact number has a decimal** as soon as its integer part is in range. -/
theorem exists_fit? (h : c.natAbs ≤ maxCoeff * 10 ^ s) : ∃ d, fit? c s = some d := by
  have hall : s - maxScale + (s - (s - maxScale)) = s := by omega
  exact exists_fitFrom (by omega) (hall.symm ▸ h)

/-! ## Differences -/

theorem natAbs_coeffAt_le (d : Decimal) (s : Nat) :
    (d.coeffAt s).natAbs ≤ maxCoeff * 10 ^ s := by
  rw [coeffAt, Int.natAbs_mul, natAbs_coeff, Int.natAbs_pow]
  exact Nat.mul_le_mul d.digits_le_maxCoeff (Nat.pow_le_pow_right (by decide) (Nat.sub_le _ _))

theorem coeffAt_nonneg (h : 0 ≤ d.toRat) (s : Nat) : 0 ≤ d.coeffAt s :=
  mul_nonneg (coeff_nonneg_iff.mpr h) (Int.pow_pos (by decide)).le

/-- **A difference of two numbers that are not negative** exists. -/
theorem exists_sub? (ha : 0 ≤ a.toRat) (hb : 0 ≤ b.toRat) : ∃ d, a.sub? b = some d := by
  unfold sub? add?
  split
  · exact ⟨_, rfl⟩
  · split
    · exact ⟨_, rfl⟩
    · refine exists_fit? ?_
      have ha' := coeffAt_nonneg ha (max a.scale b.neg.scale)
      have hb' := coeffAt_nonneg hb (max a.scale b.neg.scale)
      have hale := natAbs_coeffAt_le a (max a.scale b.neg.scale)
      have hble := natAbs_coeffAt_le b (max a.scale b.neg.scale)
      have hneg : b.neg.coeffAt (max a.scale b.neg.scale) =
          -b.coeffAt (max a.scale b.neg.scale) := by
        rw [coeffAt, coeffAt, coeff_neg, scale_neg, Int.neg_mul]
      omega

/-- **A difference that is not negative** is not rounded below zero. -/
theorem zero_le_sub? (hle : b.toRat ≤ a.toRat) (h : a.sub? b = some d) : 0 ≤ d.toRat := by
  unfold sub? add? at h
  split at h
  · next hzero =>
    cases h
    rw [toRat_of_isZero hzero] at hle
    rw [toRat_neg]
    linarith
  · split at h
    · next hzero =>
      cases h
      rw [isZero_neg] at hzero
      rwa [toRat_of_isZero hzero] at hle
    · rw [← zero_le_iff]
      refine le_fit? h ?_
      have hpos : (0 : Rat) < ((10 ^ max a.scale b.scale : Nat) : Rat) := by positivity
      rw [toRat_eq_coeffAt (le_max_left a.scale b.scale),
        toRat_eq_coeffAt (le_max_right a.scale b.scale), div_le_div_iff_of_pos_right hpos,
        Int.cast_le] at hle
      simp only [coeffAt, coeff_neg, scale_neg, Int.neg_mul, coeff_zero, scale_zero,
        Int.zero_mul, Int.pow_zero, Int.mul_one] at hle ⊢
      omega

/-! ## Products -/

/-- A product with zero is zero. -/
theorem mul?_of_isZero (h : a.isZero = true) : a.mul? b = some .zero := by
  simp [mul?, h]

/-- **A product exists** if it is in range by value. -/
theorem exists_mul? (h : |a.toRat * b.toRat| ≤ (maxCoeff : Rat)) : ∃ d, a.mul? b = some d := by
  unfold mul?
  split
  · exact ⟨_, rfl⟩
  · refine exists_fit? ?_
    have hpow : (0 : Rat) < ((10 ^ a.scale : Nat) : Rat) * ((10 ^ b.scale : Nat) : Rat) := by
      positivity
    rw [abs_mul, abs_toRat, abs_toRat, div_mul_div_comm, div_le_iff₀ hpow] at h
    rw [Int.natAbs_mul, natAbs_coeff, natAbs_coeff, Nat.pow_add]
    exact_mod_cast h

end Decimal

end ChainLedger
