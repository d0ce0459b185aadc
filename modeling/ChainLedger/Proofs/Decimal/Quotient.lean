import ChainLedger.Proofs.Decimal.Range
import Mathlib.Algebra.Order.Field.Power
import Mathlib.Tactic.LinearCombination

/-!
# Quotients within the decimal range

A quotient under way stands for a number (`Quotient.toRat`), and every round
of its development leaves that number as it is (`toRat_grow`): digits are
only taken over from the rest. So the digits never exceed the number at their
scale, and the development cannot fail if the number is below the greatest
decimal (`exists_develop`): digits that reach the bound have a fraction digit
to lose. The last digit is rounded, by two units at most. Hence a quotient
exists if it is in range by value, and is not far above it (`exists_div`).
-/

namespace ChainLedger

-- A power is the one of the core library, whatever other structure is in scope.
attribute [local instance (2000)] instPowNat

namespace Decimal

variable {a b : Decimal} {divisor digits n p : Nat} {scale : Int} {v : Rat} {q : Quotient}

/-! ## The room for more digits -/

theorem growth_le (digits n : Nat) : growth digits n ≤ n := by
  induction n with
  | zero => exact Nat.le_refl _
  | succ n ih =>
    rw [growth]
    split
    · exact Nat.le_refl _
    · exact ih.trans (Nat.le_succ n)

/-- The digits fit after they have grown. -/
theorem mul_growth_lt (h : digits < coeffBound) (n : Nat) :
    digits * 10 ^ growth digits n < coeffBound := by
  induction n with
  | zero => simpa [growth] using h
  | succ n ih =>
    rw [growth]
    split
    · assumption
    · exact ih

/-- Digits with room for one more grow. -/
theorem growth_pos (h : digits * 10 < coeffBound) (hn : 0 < n) : 0 < growth digits n := by
  induction n with
  | zero => exact absurd hn (lt_irrefl _)
  | succ n ih =>
    rw [growth]
    split
    · exact Nat.succ_pos n
    · next hfull =>
      rcases Nat.eq_zero_or_pos n with rfl | hpos
      · exact absurd (by simpa using h) hfull
      · exact ih hpos

/-! ## Quotients under way -/

namespace Quotient

/-- The number that a quotient under way stands for. -/
def toRat (divisor : Nat) (q : Quotient) : Rat :=
  (q.digits + (q.rest : Rat) / divisor) / (10 : Rat) ^ q.scale

/-- A quotient that took over so many digits from its rest. -/
def grow (divisor p : Nat) (q : Quotient) : Quotient where
  digits := q.digits * 10 ^ p + q.rest * 10 ^ p / divisor
  rest := q.rest * 10 ^ p % divisor
  scale := q.scale + p

/-- **Digits are taken over from the rest**, and the number stays. -/
theorem toRat_grow (hd : 0 < divisor) (p : Nat) (q : Quotient) :
    (q.grow divisor p).toRat divisor = q.toRat divisor := by
  have hd' : (divisor : Rat) ≠ 0 := Nat.cast_ne_zero.mpr hd.ne'
  have hsplit : ((q.rest * 10 ^ p / divisor : Nat) : Rat) * divisor
      + ((q.rest * 10 ^ p % divisor : Nat) : Rat) = (q.rest : Rat) * 10 ^ p := by
    exact_mod_cast Nat.div_add_mod' (q.rest * 10 ^ p) divisor
  have hpow : (10 : Rat) ^ (q.scale + (p : Int)) = 10 ^ q.scale * 10 ^ p := by
    rw [zpow_add₀ (by norm_num), zpow_natCast]
  have hscale : (10 : Rat) ^ q.scale ≠ 0 := zpow_ne_zero _ (by norm_num)
  have hten : (10 : Rat) ^ p ≠ 0 := pow_ne_zero _ (by norm_num)
  unfold toRat grow
  simp only [hpow]
  rw [div_eq_div_iff (mul_ne_zero hscale hten) hscale]
  push_cast
  field_simp
  linear_combination hsplit

/-- **A quotient in the range.** -/
structure Fits (divisor : Nat) (q : Quotient) : Prop where
  rest_lt : q.rest < divisor
  digits_lt : q.digits < coeffBound
  scale_le : q.scale ≤ 28

theorem toRat_nonneg (divisor : Nat) (q : Quotient) : 0 ≤ q.toRat divisor := by
  unfold toRat
  positivity

/-- The digits are not above the number at their scale. -/
theorem digits_le (divisor : Nat) (q : Quotient) :
    (q.digits : Rat) ≤ q.toRat divisor * 10 ^ q.scale := by
  have hscale : (10 : Rat) ^ q.scale ≠ 0 := zpow_ne_zero _ (by norm_num)
  have hrest : (0 : Rat) ≤ (q.rest : Rat) / divisor := by positivity
  rw [toRat, div_mul_cancel₀ _ hscale]
  linarith

/-- Without fraction digits they are not above the number. -/
theorem digits_le_toRat (hs : q.scale ≤ 0) : (q.digits : Rat) ≤ q.toRat divisor := by
  have hpow : (10 : Rat) ^ q.scale ≤ 1 := zpow_le_one_of_nonpos₀ (by norm_num) hs
  exact (q.digits_le divisor).trans (mul_le_of_le_one_right (q.toRat_nonneg divisor) hpow)

end Quotient

/-! ## The last digits -/

/-- **Digits and a scale in the range**, that are not far above a number. -/
structure Develops (v : Rat) (r : Nat × Int) : Prop where
  digits_lt : r.1 < coeffBound
  scale_le : r.2 ≤ 28
  digits_le : (r.1 : Rat) ≤ v * 10 ^ r.2 + 2

/-- Digits with a fraction digit to lose come into the range. -/
theorem exists_dropLast (more : Bool) (hs : 0 < scale) (hscale : scale ≤ 28)
    (hdigits : digits < 2 * coeffBound) (h : (digits : Rat) ≤ v * 10 ^ scale + 1) :
    ∃ r, dropLast digits more scale = some r ∧ Develops v r := by
  have hbound : 10 < coeffBound := by decide
  have hup (up : Prop) [Decidable up] :
      (if up then digits / 10 + 1 else digits / 10) ≤ digits / 10 + 1 := by
    split <;> omega
  unfold dropLast
  rw [if_neg (not_le.mpr hs)]
  refine ⟨_, rfl, (hup _).trans_lt (by omega), show scale - 1 ≤ 28 by omega, ?_⟩
  have hpow : (10 : Rat) ^ scale = 10 ^ (scale - 1) * 10 := by
    rw [← zpow_add_one₀ (by norm_num), Int.sub_add_cancel]
  have hten : ((digits / 10 : Nat) : Rat) * 10 ≤ digits := by exact_mod_cast Nat.div_mul_le_self ..
  calc _ ≤ (((digits / 10 + 1 : Nat)) : Rat) := Nat.cast_le.mpr (hup _)
    _ ≤ v * 10 ^ (scale - 1) + 2 := by
      push_cast
      rw [hpow] at h
      linarith

/-- The last digit of a quotient is rounded. -/
theorem exists_roundRest (hq : q.Fits divisor) (hs : 0 ≤ q.scale)
    (hv : q.toRat divisor < (maxCoeff : Rat)) :
    ∃ r, roundRest q divisor = some r ∧ Develops (q.toRat divisor) r := by
  have hle := q.digits_le divisor
  unfold roundRest
  simp only
  split
  · split
    · next hlt => exact ⟨_, rfl, hlt, hq.scale_le, by push_cast; linarith⟩
    · next hfull =>
      -- Digits that are all the number has are below the greatest coefficient.
      have hpos : 0 < q.scale := by
        refine lt_of_le_of_ne hs fun hzero => hfull ?_
        have hlt : q.digits < maxCoeff :=
          Nat.cast_lt.mp ((q.digits_le_toRat hzero.symm.le).trans_lt hv)
        exact Nat.lt_sub_iff_add_lt.mp hlt
      have hdigits := hq.digits_lt
      exact exists_dropLast true hpos hq.scale_le (by omega) (by push_cast; linarith)
  · exact ⟨_, rfl, hq.digits_lt, hq.scale_le, by linarith⟩

/-! ## The development -/

/-- Digits that stay without fraction digits stay in the range. -/
theorem mul_pow_lt (hd : 0 < divisor) (hs : q.scale + p ≤ 0)
    (hv : q.toRat divisor < (maxCoeff : Rat)) : q.digits * 10 ^ p < coeffBound := by
  have hle : ((q.grow divisor p).digits : Rat) ≤ (q.grow divisor p).toRat divisor :=
    Quotient.digits_le_toRat hs
  rw [q.toRat_grow hd p] at hle
  have hlt : (q.grow divisor p).digits < maxCoeff := Nat.cast_lt.mp (hle.trans_lt hv)
  have hgrow : q.digits * 10 ^ p ≤ (q.grow divisor p).digits := Nat.le_add_right _ _
  exact hgrow.trans_lt (hlt.trans_le (Nat.sub_le _ _))

/-- A quotient that took over digits fits again, or has a fraction digit to
lose. -/
theorem exists_of_grow (hq : q.Fits divisor) (hp : p ≤ 9) (hscale : q.scale + p ≤ 28)
    (hgrow : q.digits * 10 ^ p < coeffBound) (hv : q.toRat divisor < (maxCoeff : Rat))
    {next : Quotient → Option (Nat × Int)}
    (hnext : ∀ q' : Quotient, q'.Fits divisor → q'.toRat divisor = q.toRat divisor →
      ∃ r, next q' = some r ∧ Develops (q.toRat divisor) r) :
    ∃ r, (if (q.grow divisor p).digits < coeffBound then next (q.grow divisor p)
        else dropLast (q.grow divisor p).digits ((q.grow divisor p).rest ≠ 0)
          (q.grow divisor p).scale) = some r ∧ Develops (q.toRat divisor) r := by
  have hd : 0 < divisor := (Nat.zero_le _).trans_lt hq.rest_lt
  have hsame := q.toRat_grow hd p
  split
  · next hlt => exact hnext _ ⟨Nat.mod_lt _ hd, hlt, hscale⟩ hsame
  · next hfull =>
    have hle := (q.grow divisor p).digits_le divisor
    rw [hsame] at hle
    have hpos : 0 < (q.grow divisor p).scale := by
      by_contra hs
      have hdigits : ((q.grow divisor p).digits : Rat) ≤ (q.grow divisor p).toRat divisor :=
        Quotient.digits_le_toRat (not_lt.mp hs)
      rw [hsame] at hdigits
      have hlt : (q.grow divisor p).digits < maxCoeff := Nat.cast_lt.mp (hdigits.trans_lt hv)
      exact hfull (hlt.trans_le (Nat.sub_le _ _))
    have hadded : q.rest * 10 ^ p / divisor < 10 ^ p := by
      rw [Nat.div_lt_iff_lt_mul hd, Nat.mul_comm]
      exact Nat.mul_lt_mul_of_pos_left hq.rest_lt (Nat.pow_pos (by decide))
    have hpow : 10 ^ p ≤ 10 ^ (9 : Nat) := Nat.pow_le_pow_right (by decide) hp
    have hbound : 10 ^ (9 : Nat) < coeffBound := by decide
    have hdigits : (q.grow divisor p).digits < 2 * coeffBound := by
      show q.digits * 10 ^ p + q.rest * 10 ^ p / divisor < 2 * coeffBound
      omega
    exact exists_dropLast _ hpos hscale hdigits (by linarith)

/-- **A quotient below the greatest decimal is developed**, in any number of
rounds. -/
theorem exists_develop (hq : q.Fits divisor) (hv : q.toRat divisor < (maxCoeff : Rat)) (n : Nat) :
    ∃ r, develop divisor n q = some r ∧ Develops (q.toRat divisor) r := by
  induction n generalizing q with
  | zero =>
    exact ⟨_, rfl, hq.digits_lt, hq.scale_le, (q.digits_le divisor).trans (by linarith)⟩
  | succ n ih =>
    have hnext (q' : Quotient) (hq' : q'.Fits divisor)
        (hsame : q'.toRat divisor = q.toRat divisor) :
        ∃ r, develop divisor n q' = some r ∧ Develops (q.toRat divisor) r :=
      hsame ▸ ih hq' (hsame.symm ▸ hv)
    have hd : 0 < divisor := (Nat.zero_le _).trans_lt hq.rest_lt
    have hscale := hq.scale_le
    rw [develop]
    split
    · exact ⟨_, rfl, hq.digits_lt, hq.scale_le, (q.digits_le divisor).trans (by linarith)⟩
    · next hunfinished =>
      simp only
      by_cases hrest : q.rest = 0
      · -- Only the scale is brought up, and without fraction digits there is room for that.
        have hneg : q.scale < 0 := not_le.mp fun hs => hunfinished ⟨hrest, hs⟩
        have hroom : q.digits * 10 ^ min 9 (-q.scale).toNat < coeffBound :=
          mul_pow_lt hd (by omega) hv
        rw [if_neg (fun h => h.1 hrest), if_pos hrest, if_pos hrest, if_neg (not_le.mpr hroom)]
        exact exists_of_grow hq (min_le_left _ _) (by omega) hroom hv hnext
      · rw [if_neg hrest, if_neg hrest]
        generalize hroom : min 9 (28 - q.scale).toNat = room
        have hle := growth_le q.digits room
        have hlt := mul_growth_lt hq.digits_lt room
        split
        · next hfull =>
          -- A quotient without fraction digits has room for one more.
          have hs : 0 ≤ q.scale := by
            by_contra hneg
            have hten : q.digits * 10 < coeffBound := by
              simpa using mul_pow_lt (p := 1) hd (by omega) hv
            have hpos := growth_pos hten (n := room) (by omega)
            exact hpos.ne' hfull.2
          rw [if_neg (not_lt.mpr hs)]
          exact exists_roundRest hq hs hv
        · rw [if_neg (not_le.mpr hlt)]
          exact exists_of_grow hq (by omega) (by omega) hlt hv hnext

/-! ## Zeros at the end -/

/-- **Digits and a scale that only lost zeros.** -/
structure Shortens (r r' : Nat × Nat) : Prop where
  value : (r'.1 : Rat) / ((10 ^ r'.2 : Nat) : Rat) = (r.1 : Rat) / ((10 ^ r.2 : Nat) : Rat)
  digits_le : r'.1 ≤ r.1
  scale_le : r'.2 ≤ r.2

theorem Shortens.refl (r : Nat × Nat) : Shortens r r := ⟨rfl, le_rfl, le_rfl⟩

theorem Shortens.trans {r r' r'' : Nat × Nat} (h : Shortens r r') (h' : Shortens r' r'') :
    Shortens r r'' :=
  ⟨h'.value.trans h.value, h'.digits_le.trans h.digits_le, h'.scale_le.trans h.scale_le⟩

theorem shortens_dropZeros (k bits : Nat) (r : Nat × Nat) : Shortens r (dropZeros k bits r) := by
  unfold dropZeros
  split
  · next hk =>
    obtain ⟨hscale, -, hzeros⟩ := hk
    refine ⟨?_, Nat.div_le_self _ _, Nat.sub_le _ _⟩
    have hdigits : r.1 / 10 ^ k * 10 ^ k = r.1 := Nat.div_mul_cancel (Nat.dvd_of_mod_eq_zero hzeros)
    have hpow : 10 ^ (r.2 - k) * 10 ^ k = 10 ^ r.2 := by
      rw [← Nat.pow_add, Nat.sub_add_cancel hscale]
    have hten : ((10 ^ k : Nat) : Rat) ≠ 0 := by positivity
    show ((r.1 / 10 ^ k : Nat) : Rat) / ((10 ^ (r.2 - k) : Nat) : Rat) = _
    rw [← mul_div_mul_right _ _ hten, ← Nat.cast_mul, ← Nat.cast_mul, hdigits, hpow]
  · exact .refl r

theorem shortens_dropEights (n : Nat) (r : Nat × Nat) : Shortens r (dropEights n r) := by
  induction n generalizing r with
  | zero => exact .refl r
  | succ n ih =>
    rw [dropEights]
    split
    · exact .refl r
    · exact (shortens_dropZeros 8 32 r).trans (ih _)

theorem shortens_dropQuotientZeros (r : Nat × Nat) : Shortens r (dropQuotientZeros r) :=
  (shortens_dropEights 4 r).trans <| (shortens_dropZeros 4 4 _).trans <|
    (shortens_dropZeros 2 2 _).trans (shortens_dropZeros 1 1 _)

/-! ## Quotients -/

/-- A quotient starts from the exact number. -/
theorem toRat_start (hb : b.toRat ≠ 0) :
    (Quotient.mk (a.digits / b.digits) (a.digits % b.digits) ((a.scale : Int) - b.scale)).toRat
      b.digits = |a.toRat| / |b.toRat| := by
  have hten : (10 : Rat) ≠ 0 := by norm_num
  have ha' : (10 : Rat) ^ a.scale ≠ 0 := pow_ne_zero _ hten
  have hb' : (10 : Rat) ^ b.scale ≠ 0 := pow_ne_zero _ hten
  have hd : (b.digits : Rat) ≠ 0 := by
    intro hzero
    exact hb (abs_eq_zero.mp (by rw [abs_toRat, hzero, zero_div]))
  have hsplit : ((a.digits / b.digits : Nat) : Rat) * b.digits
      + ((a.digits % b.digits : Nat) : Rat) = a.digits := by
    exact_mod_cast Nat.div_add_mod' a.digits b.digits
  rw [Quotient.toRat, zpow_sub₀ hten, zpow_natCast, zpow_natCast, abs_toRat, abs_toRat]
  push_cast
  field_simp
  linear_combination hsplit

/-- Digits with a sign, as a number. -/
theorem abs_toRat_of_ofParts? {sign : Int} {digits scale : Nat} {d : Decimal}
    (hsign : sign.natAbs = 1) (h : ofParts? (sign * digits) scale = some d) :
    |d.toRat| = (digits : Rat) / ((10 ^ scale : Nat) : Rat) := by
  obtain ⟨hcoeff, rfl⟩ := coeff_of_ofParts? h
  have hdigits : d.digits = digits := by
    rw [← natAbs_coeff, hcoeff, Int.natAbs_mul, hsign, Nat.one_mul, Int.natAbs_natCast]
  rw [abs_toRat, hdigits]

/-- Digits that were developed are not far above the number, at a scale that
was brought up to zero. -/
theorem Develops.value_le {r : Nat × Int} (h : Develops v r) (hv : 0 ≤ v) :
    (r.1 : Rat) / ((10 ^ r.2.toNat : Nat) : Rat) ≤ v + 2 := by
  have hunit : (1 : Rat) ≤ ((10 ^ r.2.toNat : Nat) : Rat) :=
    Nat.one_le_cast.mpr (Nat.one_le_pow _ _ (by decide))
  have hpow : (10 : Rat) ^ r.2 ≤ ((10 ^ r.2.toNat : Nat) : Rat) := by
    rw [Nat.cast_pow, ← zpow_natCast]
    exact zpow_le_zpow_right₀ (by norm_num) (Int.self_le_toNat r.2)
  rw [div_le_iff₀ (by linarith)]
  calc (r.1 : Rat) ≤ v * 10 ^ r.2 + 2 := h.digits_le
    _ ≤ v * ((10 ^ r.2.toNat : Nat) : Rat) + 2 * ((10 ^ r.2.toNat : Nat) : Rat) := by
      have := mul_le_mul_of_nonneg_left hpow hv
      linarith
    _ = (v + 2) * ((10 ^ r.2.toNat : Nat) : Rat) := by ring

/-- **A quotient exists** if it is in range by value, and it is not far above
the exact one. -/
theorem exists_div (hb : b.toRat ≠ 0) (h : |a.toRat| / |b.toRat| < (maxCoeff : Rat)) :
    ∃ d, a.div b = .ok d ∧ |d.toRat| ≤ |a.toRat| / |b.toRat| + 2 := by
  have hnonneg : 0 ≤ |a.toRat| / |b.toRat| := by positivity
  unfold div
  rw [if_neg (fun hzero => hb (toRat_of_isZero hzero))]
  split
  · exact ⟨_, rfl, by rw [toRat_zero, abs_zero]; linarith⟩
  · have hd : 0 < b.digits := by
      refine Nat.pos_of_ne_zero fun hzero => hb (toRat_of_isZero ?_)
      simpa [isZero] using hzero
    have hscale := a.scale_le
    obtain ⟨r, hr, hdevelops⟩ := exists_develop
      (q := ⟨a.digits / b.digits, a.digits % b.digits, (a.scale : Int) - b.scale⟩)
      ⟨Nat.mod_lt _ hd, (Nat.div_le_self _ _).trans_lt a.digits_lt, by simp only; omega⟩
      (toRat_start hb ▸ h) 64
    rw [toRat_start hb] at hdevelops
    simp only [hr]
    generalize hshort : (if a.digits % b.digits = 0 then (r.1, r.2.toNat)
      else dropQuotientZeros (r.1, r.2.toNat)) = short
    have hshortens : Shortens (r.1, r.2.toNat) short := by
      rw [← hshort]
      split
      · exact .refl _
      · exact shortens_dropQuotientZeros _
    have hcoeff : short.1 ≤ maxCoeff :=
      hshortens.digits_le.trans (Nat.le_sub_one_of_lt hdevelops.digits_lt)
    have hscale' : short.2 ≤ maxScale := by
      have hdeveloped := hdevelops.scale_le
      have hshorter := hshortens.scale_le
      simp only at hshorter
      show short.2 ≤ 28
      omega
    generalize hsign : (if a.negative = b.negative then (1 : Int) else -1) = sign
    have hone : sign.natAbs = 1 := by rw [← hsign]; split <;> rfl
    obtain ⟨d, hparts⟩ := exists_ofParts? (c := sign * short.1)
      (by rwa [Int.natAbs_mul, hone, Nat.one_mul, Int.natAbs_natCast]) hscale'
    rw [hparts]
    refine ⟨d, rfl, ?_⟩
    rw [abs_toRat_of_ofParts? hone hparts, hshortens.value]
    exact hdevelops.value_le hnonneg

/-- **A hundredth of any decimal** exists. -/
theorem exists_div_hundred (a : Decimal) : ∃ d, a.div .hundred = .ok d := by
  have hne : hundred.toRat ≠ 0 := by rw [toRat_hundred]; norm_num
  have hrange : |a.toRat| / |hundred.toRat| < (maxCoeff : Rat) := by
    have hpos : (0 : Rat) < (maxCoeff : Rat) := by exact_mod_cast (by decide : 0 < maxCoeff)
    have hle := a.abs_toRat_le
    rw [toRat_hundred, abs_of_pos (by norm_num : (0 : Rat) < 100), div_lt_iff₀ (by norm_num)]
    linarith
  obtain ⟨d, hd, -⟩ := exists_div hne hrange
  exact ⟨d, hd⟩

end Decimal

end ChainLedger
