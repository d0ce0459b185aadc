import ChainLedger.Proofs.Decimal.Difference

/-!
# The shortest form of a decimal

A decimal loses the zeros at the end of its fraction, and nothing but zeros
(`stripZeros_mul`), so it stands for the same number (`toRat_normalize`). A
digit that is left at the end of a fraction is not zero (`stripZeros_mod`),
so no decimal with fewer fraction digits stands for that number
(`scale_normalize_le`): the form is the shortest one (`Shortest`).
-/

namespace ChainLedger

-- A power is the one of the core library, whatever other structure is in scope.
attribute [local instance (2000)] instPowNat

namespace Decimal

variable {d e : Decimal} {n m : Nat}

/-- **The decimal is the number, with the fewest fraction digits.** -/
structure Shortest (q : Rat) (d : Decimal) : Prop where
  value : d.toRat = q
  least : ∀ e : Decimal, e.toRat = q → d.scale ≤ e.scale

/-! ## Zeros at the end -/

/-- The zeros that were dropped make up the digits again. -/
theorem stripZeros_mul (n m : Nat) : (stripZeros n m).1 * 10 ^ (n - (stripZeros n m).2) = m := by
  induction n generalizing m with
  | zero => simp [stripZeros]
  | succ n ih =>
    rw [stripZeros]
    split
    · next hzero =>
      have hle := stripZeros_snd_le n (m / 10)
      have htenth : m / 10 * 10 = m := Nat.div_mul_cancel (Nat.dvd_of_mod_eq_zero hzero)
      rw [Nat.succ_sub hle, Nat.pow_succ, ← Nat.mul_assoc, ih, htenth]
    · rw [Nat.sub_self, Nat.pow_zero, Nat.mul_one]

/-- What is left ends in a zero only if no more could go. -/
theorem stripZeros_mod (hleft : (stripZeros n m).2 ≠ 0) : (stripZeros n m).1 % 10 ≠ 0 := by
  induction n generalizing m with
  | zero => exact absurd rfl hleft
  | succ n ih =>
    rw [stripZeros] at hleft ⊢
    split
    · next hzero =>
      rw [if_pos hzero] at hleft
      exact ih hleft
    · assumption

/-! ## The shortest form -/

theorem coeff_normalize_mul (d : Decimal) :
    d.normalize.coeff * 10 ^ (d.scale - d.normalize.scale) = d.coeff := by
  have hdigits : d.normalize.digits * 10 ^ (d.scale - d.normalize.scale) = d.digits :=
    stripZeros_mul d.scale d.digits
  have hcast : (d.normalize.digits : Int) * 10 ^ (d.scale - d.normalize.scale) = d.digits := by
    exact_mod_cast hdigits
  by_cases hzero : d.isZero = true
  · have hd : d.digits = 0 := by simpa [isZero] using hzero
    have hnone : d.normalize.digits = 0 := by
      have hpos : 0 < 10 ^ (d.scale - d.normalize.scale) := Nat.pow_pos (by decide)
      rw [hd] at hdigits
      exact (Nat.mul_eq_zero.mp hdigits).resolve_right hpos.ne'
    rw [(coeff_eq_zero_iff _).mpr hnone, (coeff_eq_zero_iff _).mpr hd, Int.zero_mul]
  · have hsign : d.normalize.negative = d.negative := by simp [normalize, hzero]
    unfold coeff
    rw [hsign]
    split
    · rw [Int.neg_mul, hcast]
    · exact hcast

/-- **The number stays.** -/
@[simp] theorem toRat_normalize (d : Decimal) : d.normalize.toRat = d.toRat := by
  have hle : d.normalize.scale ≤ d.scale := stripZeros_snd_le d.scale d.digits
  have hcoeff := d.coeff_normalize_mul
  rw [toRat_eq_coeffAt hle, coeffAt, hcoeff, toRat]

/-- A fraction that still has digits does not end in a zero. -/
theorem digits_normalize_mod (h : d.normalize.scale ≠ 0) : d.normalize.digits % 10 ≠ 0 :=
  stripZeros_mod h

/-- **No decimal of the same number has fewer fraction digits.** -/
theorem scale_normalize_le (h : e.toRat = d.toRat) : d.normalize.scale ≤ e.scale := by
  by_contra hlt
  obtain ⟨j, hj⟩ : ∃ j, d.normalize.scale = e.scale + (j + 1) :=
    ⟨d.normalize.scale - e.scale - 1, by omega⟩
  have hle : e.scale ≤ d.normalize.scale := by omega
  -- At the longer scale the other one ends in a zero, and the coefficients are the same.
  have hcoeff : d.normalize.coeff = e.coeff * 10 ^ j * 10 := by
    have hpow : ((10 ^ d.normalize.scale : Nat) : Rat) ≠ 0 := by positivity
    rw [← toRat_normalize d, toRat_eq_coeffAt hle, toRat, div_left_inj' hpow, Int.cast_inj,
      coeffAt, hj, Nat.add_sub_cancel_left, pow_succ] at h
    rw [← h, Int.mul_assoc]
  have hdigits : d.normalize.digits % 10 = 0 := by
    rw [← natAbs_coeff, hcoeff, Int.natAbs_mul]
    exact Nat.mul_mod_left _ _
  exact digits_normalize_mod (by omega) hdigits

/-- **A decimal without zeros at the end of its fraction is the shortest.** -/
theorem shortest_normalize (d : Decimal) : Shortest d.toRat d.normalize where
  value := d.toRat_normalize
  least _ he := scale_normalize_le he

end Decimal

end ChainLedger
