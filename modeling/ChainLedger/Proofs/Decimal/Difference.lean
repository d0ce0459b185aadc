import ChainLedger.Proofs.Decimal.Rounding

/-!
# Differences keep their sign

Rounding half to even treats a number and its negative alike, so a sum of
negatives is the negative of the sum (`add?_neg`), and what holds of sums from
below holds of differences from above. A difference is not above its first
operand if the second is not negative (`toRat_sub?_le`), and it is negative
whenever the exact difference is, however much of it is rounded away
(`le_of_sub?`): a test on the rounded difference is a test on the operands.
-/

namespace ChainLedger

-- A power is the one of the core library, whatever other structure is in scope.
attribute [local instance (2000)] instPowNat

namespace Decimal

variable {a b d r : Decimal} {c : Int} {s : Nat}

/-! ## Negatives -/

@[simp] theorem isZero_neg (d : Decimal) : d.neg.isZero = d.isZero := by
  unfold neg
  split <;> rfl

@[simp] protected theorem neg_neg (d : Decimal) : d.neg.neg = d := by
  by_cases hd : d.isZero = true
  · simp [neg, hd]
  · have hd' : isZero { d with negative := !d.negative } = d.isZero := rfl
    simp [neg, hd, hd']

theorem toRat_neg (d : Decimal) : d.neg.toRat = -d.toRat := by
  rw [toRat, toRat, coeff_neg, scale_neg, Int.cast_neg, neg_div]

theorem toRat_of_isZero (h : d.isZero = true) : d.toRat = 0 := by
  have hd : d.coeff = 0 := (coeff_eq_zero_iff d).mpr (by simpa [isZero] using h)
  rw [toRat, hd, Int.cast_zero, zero_div]

theorem toRat_zero : zero.toRat = 0 := toRat_of_isZero rfl

/-- A decimal that is not below zero stands for a number that is not. -/
theorem not_lt_zero_iff : ¬ d < zero ↔ 0 ≤ d.toRat := by
  rw [← toRat_zero, ← le_iff, lt_zero_iff, not_lt]
  show _ ↔ 0 * 10 ^ d.scale ≤ d.coeff * 10 ^ (0 : Nat)
  simp

theorem zero_le_iff : zero ≤ d ↔ 0 ≤ d.toRat := by
  rw [le_iff, toRat_zero]

/-- A decimal that is made of a number has its sign. -/
theorem negative_of_ofParts? (h : ofParts? c s = some d) : d.negative = decide (c < 0) := by
  unfold ofParts? at h
  split at h
  · cases h
    rfl
  · cases h

/-! ## Rounding negatives -/

theorem dropDigits_neg (c : Int) (k : Nat) : dropDigits (-c) k = -dropDigits c k := by
  have hzero : roundHalfEven 0 (10 ^ k) = 0 := by
    have hpow : 0 < 10 ^ k := Nat.pow_pos (by decide)
    simp [roundHalfEven, hpow]
  unfold dropDigits withSign
  rw [Int.natAbs_neg]
  rcases lt_trichotomy c 0 with hc | rfl | hc
  · rw [if_neg (by omega), if_pos hc, Int.neg_neg]
  · simp [hzero]
  · rw [if_pos (by omega), if_neg (by omega)]

theorem ofParts?_neg (c : Int) (s : Nat) : ofParts? (-c) s = (ofParts? c s).map neg := by
  unfold ofParts?
  simp only [Int.natAbs_neg]
  split
  · rcases eq_or_ne c 0 with rfl | hc
    · rfl
    · have hsign : decide (-c < 0) = !decide (c < 0) := by
        rw [← decide_not, decide_eq_decide]
        omega
      simp only [neg, isZero, beq_iff_eq, Int.natAbs_eq_zero, hc, hsign, if_false, Option.map_some]
  · rfl

theorem fitFrom_neg (c : Int) (s n k : Nat) : fitFrom (-c) s n k = (fitFrom c s n k).map neg := by
  induction n generalizing k with
  | zero => rw [fitFrom, fitFrom, dropDigits_neg, ofParts?_neg]
  | succ n ih =>
    rw [fitFrom, fitFrom, dropDigits_neg, ofParts?_neg, ih]
    cases ofParts? (dropDigits c k) (s - k) <;> rfl

/-- **The negative of what is left** after rounding is what is left of the
negative. -/
theorem fit?_neg (c : Int) (s : Nat) : fit? (-c) s = (fit? c s).map neg :=
  fitFrom_neg ..

/-- **Rounding does not hide a number above zero**, where the scale is in
range. -/
theorem zero_lt_fit? (hs : s ≤ maxScale) (hc : 0 < c) (h : fit? c s = some r) : zero < r := by
  let unit : Decimal := ⟨false, 1, s, by decide, hs⟩
  have hunit : unit ≤ r := le_fit? h <| by
    show 1 * 10 ^ s ≤ c * 10 ^ s
    exact mul_le_mul_of_nonneg_right hc (Int.pow_pos (by decide)).le
  have hpow : (0 : Int) < 10 ^ r.scale := Int.pow_pos (by decide)
  have hle : 1 * 10 ^ r.scale ≤ r.coeff * 10 ^ s := hunit
  have hmul : 0 < r.coeff * 10 ^ s := by omega
  exact (zero_lt_iff r).mpr (pos_of_mul_pos_left hmul (Int.pow_pos (by decide)).le)

/-! ## Differences -/

/-- A sum of negatives is the negative of the sum. -/
theorem add?_neg (a b : Decimal) : a.neg.add? b.neg = (a.add? b).map neg := by
  unfold add?
  rw [isZero_neg, isZero_neg, scale_neg, scale_neg]
  split
  · rfl
  · split
    · rfl
    · rw [← fit?_neg]
      simp only [coeffAt, coeff_neg, scale_neg, Int.neg_mul, Int.neg_add]

/-- **A difference with a number that is not negative** is not above its first
operand. -/
theorem toRat_sub?_le (hb : 0 ≤ b.toRat) (h : a.sub? b = some d) : d.toRat ≤ a.toRat := by
  have hneg : a.neg.add? b = some d.neg := by
    rw [← Decimal.neg_neg b, add?_neg]
    exact congrArg (Option.map neg) h
  have hle := toRat_le_add? (zero_le_iff.mpr hb) hneg
  rw [toRat_neg, toRat_neg] at hle
  linarith

/-- The number, read off the coefficient at a larger scale. -/
theorem toRat_eq_coeffAt (hs : d.scale ≤ s) :
    d.toRat = (d.coeffAt s : Rat) / ((10 ^ s : Nat) : Rat) := by
  have hd : ((10 ^ d.scale : Nat) : Rat) ≠ 0 := by positivity
  have hs' : ((10 ^ s : Nat) : Rat) ≠ 0 := by positivity
  rw [toRat, div_eq_div_iff hd hs', Nat.cast_pow, Nat.cast_pow]
  exact_mod_cast (coeffAt_mul hs).symm

/-- **A difference that is not negative** says that its second operand is not
above the first, even where it is rounded. -/
theorem le_of_sub? (h : a.sub? b = some d) (hd : ¬ d < zero) : b.toRat ≤ a.toRat := by
  unfold sub? add? at h
  split at h
  · next hzero =>
    cases h
    rw [not_lt_zero_iff, toRat_neg] at hd
    rw [toRat_of_isZero hzero]
    linarith
  · split at h
    · next hzero =>
      cases h
      rw [isZero_neg] at hzero
      rw [toRat_of_isZero hzero]
      exact not_lt_zero_iff.mp hd
    · -- Were the exact difference negative, its negative would be rounded to a number above zero.
      by_contra hab
      rw [not_le] at hab
      have hpos : (0 : Rat) < ((10 ^ max a.scale b.scale : Nat) : Rat) := by positivity
      rw [toRat_eq_coeffAt (le_max_left a.scale b.scale),
        toRat_eq_coeffAt (le_max_right a.scale b.scale), div_lt_div_iff_of_pos_right hpos,
        Int.cast_lt] at hab
      simp only [scale_neg, coeffAt, coeff_neg, Int.neg_mul] at h hab
      have hneg := congrArg (Option.map neg) h
      rw [← fit?_neg] at hneg
      have hd' := zero_lt_fit? (max_le a.scale_le b.scale_le) (by omega) hneg
      rw [zero_lt_iff, coeff_neg] at hd'
      rw [lt_zero_iff] at hd
      omega

end Decimal

end ChainLedger
