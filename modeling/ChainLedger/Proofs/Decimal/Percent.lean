import ChainLedger.Proofs.Decimal.Grid
import ChainLedger.Proofs.Decimal.Quotient

/-!
# Products and hundredths that do not round

A product whose digits and scale are in range is exact (`exists_mul?_of_digits`).
A hundredth takes two more fraction digits, and where the scale leaves room for
these it is exact as well, whatever the digits (`exists_div_hundred_of_scale`):
the development of the quotient is through after one round, with zeros at the
end if more digits were added than it takes.
-/

namespace ChainLedger

-- A power is the one of the core library, whatever other structure is in scope.
attribute [local instance (2000)] instPowNat

namespace Decimal

variable {a b d : Decimal} {c : Int} {s digits scale n : Nat}

/-! ## Products -/

/-- A number in the range is not rounded at all. -/
theorem exists_fit?_of_lt (hc : c.natAbs < coeffBound) (hs : s ≤ maxScale) :
    ∃ d, fit? c s = some d ∧ d.coeff = c ∧ d.scale = s := by
  have hpow : 0 < 10 ^ s := Nat.pow_pos (by decide)
  obtain ⟨d, hd⟩ := exists_fit?
    ((Nat.le_sub_one_of_lt hc).trans (Nat.le_mul_of_pos_right maxCoeff hpow))
  obtain ⟨k, -, -, hcoeff, hscale, hprevious⟩ := of_fit? hd
  -- Had a digit been dropped, the number with all of them would not have fitted.
  obtain rfl : k = 0 := by
    by_contra hk
    have hbig := hprevious (by omega)
    have hpow' : 0 < 10 ^ (k - 1) := Nat.pow_pos (by decide)
    have hsmall : (dropDigits c (k - 1)).natAbs ≤ c.natAbs :=
      natAbs_dropDigits_le (Nat.le_mul_of_pos_right _ hpow')
    omega
  rw [dropDigits_zero] at hcoeff
  exact ⟨d, hd, hcoeff, hscale⟩

/-- **A product is exact** if its digits and its scale are in range. -/
theorem exists_mul?_of_digits (hdigits : a.digits * b.digits < coeffBound)
    (hs : a.scale + b.scale ≤ maxScale) :
    ∃ d, a.mul? b = some d ∧ d.toRat = a.toRat * b.toRat ∧ d.scale ≤ a.scale + b.scale := by
  unfold mul?
  split
  · next hzero =>
    refine ⟨_, rfl, ?_, Nat.zero_le _⟩
    rw [toRat_zero]
    rcases Bool.or_eq_true_iff.mp hzero with ha | hb
    · rw [toRat_of_isZero ha, zero_mul]
    · rw [toRat_of_isZero hb, mul_zero]
  · have hc : (a.coeff * b.coeff).natAbs < coeffBound := by
      rwa [Int.natAbs_mul, natAbs_coeff, natAbs_coeff]
    obtain ⟨d, hd, hcoeff, hscale⟩ := exists_fit?_of_lt hc hs
    refine ⟨d, hd, ?_, hscale.le⟩
    rw [toRat, hcoeff, hscale, toRat, toRat, div_mul_div_comm, Nat.pow_add, Int.cast_mul,
      Nat.cast_mul]

/-! ## Hundredths -/

/-- Digits with room for two more grow by two at least. -/
theorem two_le_growth (h : digits * 10 ^ (2 : Nat) < coeffBound) (hn : 2 ≤ n) :
    2 ≤ growth digits n := by
  induction n, hn using Nat.le_induction with
  | base => rw [growth, if_pos h]
  | succ n hn ih =>
    rw [growth]
    split
    · omega
    · exact ih

/-- **One round divides by a hundred**: the digits move by so many places less
two. -/
theorem grow_hundred (digits scale j : Nat) :
    (Quotient.mk (digits / 100) (digits % 100) scale).grow 100 (j + 2) =
      ⟨digits * 10 ^ j, 0, ((scale + j + 2 : Nat) : Int)⟩ := by
  have hrest : digits % 100 * 10 ^ (j + 2) = digits % 100 * 10 ^ j * 100 := by
    rw [Nat.pow_add, Nat.mul_assoc]
  have hsplit : digits / 100 * 100 + digits % 100 = digits := Nat.div_add_mod' digits 100
  have hdigits : digits / 100 * 10 ^ (j + 2) + digits % 100 * 10 ^ j = digits * 10 ^ j := by
    calc digits / 100 * 10 ^ (j + 2) + digits % 100 * 10 ^ j
        = (digits / 100 * 100 + digits % 100) * 10 ^ j := by rw [Nat.pow_add]; ring
      _ = digits * 10 ^ j := by rw [hsplit]
  simp only [Quotient.grow, hrest, Nat.mul_div_cancel _ (by decide : 0 < 100), Nat.mul_mod_left,
    hdigits, Quotient.mk.injEq, true_and]
  omega

/-- A zero that was added is dropped without a trace. -/
theorem dropLast_mul_ten (digits scale : Nat) :
    dropLast (digits * 10) false ((scale + 1 : Nat) : Int) = some (digits, (scale : Int)) := by
  have hnot : ¬ ((scale + 1 : Nat) : Int) ≤ 0 := by omega
  rw [dropLast, if_neg hnot]
  simp

/-- **A hundredth is developed exactly** where there is room for two more
fraction digits. -/
theorem develop_hundred (hdigits : digits < coeffBound) (hs : scale ≤ 26) :
    ∃ m t : Nat, develop 100 64 ⟨digits / 100, digits % 100, scale⟩ = some (m, (t : Int)) ∧
      m * (100 * 10 ^ scale) = digits * 10 ^ t := by
  rw [develop]
  by_cases hrest : digits % 100 = 0
  · rw [if_pos ⟨hrest, Int.natCast_nonneg scale⟩]
    refine ⟨_, _, rfl, ?_⟩
    rw [← Nat.mul_assoc, Nat.div_mul_cancel (Nat.dvd_of_mod_eq_zero hrest)]
  · rw [if_neg fun h => hrest h.1]
    simp only [if_neg hrest]
    generalize hroom : min 9 (28 - (scale : Int)).toNat = room
    have htwo : 2 ≤ growth (digits / 100) room := by
      refine two_le_growth ((Nat.div_mul_le_self digits 100).trans_lt hdigits) ?_
      omega
    have hlt := mul_growth_lt ((Nat.div_le_self digits 100).trans_lt hdigits) room
    obtain ⟨j, hj⟩ : ∃ j, growth (digits / 100) room = j + 2 := ⟨_, (Nat.sub_add_cancel htwo).symm⟩
    rw [hj] at hlt ⊢
    rw [if_neg (by simp), if_neg (not_le.mpr hlt)]
    have hgrow := grow_hundred digits scale j
    simp only [Quotient.grow, Quotient.mk.injEq] at hgrow
    obtain ⟨hd, hr, hscale⟩ := hgrow
    rw [hd, hr, hscale]
    split
    · -- Nothing is left over, so the next round is the last.
      refine ⟨_, _, by rw [develop, if_pos ⟨rfl, Int.natCast_nonneg _⟩], ?_⟩
      ring
    · next hfull =>
      obtain ⟨i, rfl⟩ : ∃ i, j = i + 1 := by
        refine Nat.exists_eq_succ_of_ne_zero fun hzero => hfull ?_
        rw [hzero, Nat.pow_zero, Nat.mul_one]
        exact hdigits
      have hshift : scale + (i + 1) + 2 = scale + i + 2 + 1 := by omega
      rw [hshift, Nat.pow_succ, ← Nat.mul_assoc]
      refine ⟨_, _, dropLast_mul_ten _ _, ?_⟩
      ring

/-- The sign of a number, as a quotient by a hundred has it. -/
theorem sign_mul_digits (a : Decimal) :
    (if a.negative = hundred.negative then (1 : Int) else -1) * a.digits = a.coeff := by
  unfold coeff
  cases a.negative <;> simp [hundred]

/-- **A hundredth is exact** where there is room for two more fraction digits. -/
theorem exists_div_hundred_of_scale (hs : a.scale ≤ 26) :
    ∃ d, a.div .hundred = .ok d ∧ d.toRat = a.toRat / 100 := by
  obtain ⟨d, hd⟩ := exists_div_hundred a
  refine ⟨d, hd, ?_⟩
  unfold div at hd
  rw [if_neg (by decide)] at hd
  split at hd
  · next hzero =>
    cases hd
    rw [toRat_zero, toRat_of_isZero hzero, zero_div]
  · obtain ⟨m, t, hdevelop, hvalue⟩ := develop_hundred a.digits_lt hs
    have hscale : (a.scale : Int) - (hundred.scale : Nat) = a.scale := Int.sub_zero _
    have hdigits : hundred.digits = 100 := rfl
    simp only [hscale, hdigits, hdevelop, Int.toNat_natCast] at hd
    generalize hshort : (if a.digits % 100 = 0 then (m, t) else dropQuotientZeros (m, t)) =
      short at hd
    have hshortens : Shortens (m, t) short := by
      rw [← hshort]
      split
      · exact .refl _
      · exact shortens_dropQuotientZeros _
    split at hd
    · next hparts =>
      cases hd
      obtain ⟨hcoeff, hscale'⟩ := coeff_of_ofParts? hparts
      have hquotient : (m : Rat) / ((10 ^ t : Nat) : Rat) =
          (a.digits : Rat) / ((10 ^ a.scale : Nat) : Rat) / 100 := by
        have ht : ((10 ^ t : Nat) : Rat) ≠ 0 := by positivity
        have ha : ((10 ^ a.scale : Nat) : Rat) * 100 ≠ 0 := by positivity
        rw [div_div, div_eq_div_iff ht ha, mul_comm _ (100 : Rat)]
        exact_mod_cast hvalue
      rw [toRat, hcoeff, hscale', Int.cast_mul, Int.cast_natCast, mul_div_assoc, hshortens.value,
        hquotient, toRat, ← sign_mul_digits, Int.cast_mul, Int.cast_natCast, mul_div_assoc,
        mul_div_assoc]
    · cases hd

end Decimal

end ChainLedger
