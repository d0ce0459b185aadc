import ChainLedger.Proofs.Decimal.Grid

/-!
# Sums, differences and products are faithful

A sum is a decimal next to the exact sum: no decimal lies strictly between
the two (`Rounds`). So it is the exact sum whenever some decimal is, and only
then (`Rounds.eq_iff`). Where no decimal is, what was rounded away is less
than `2 ^ -93` of the exact sum: the digits that are kept fill the 96 bits,
but for the last one. Numbers on a grid, before its end, are decimals
(`Representable.of_onGrid`).

A product may have more fraction digits than a decimal. It is next to the
exact product all the same, but where those digits are all it has, half a
unit of the finest scale may be rounded away (`abs_toRat_mul?_sub_le`).
-/

namespace ChainLedger

-- A power is the one of the core library, whatever other structure is in scope.
attribute [local instance (2000)] instPowNat

namespace Decimal

variable {a b d e : Decimal} {c : Int} {s : Nat} {q : Rat}

/-- **Some decimal is the number**. -/
def Representable (q : Rat) : Prop := ∃ e : Decimal, e.toRat = q

/-- **The decimal is the number, or a neighbour of it**. -/
structure Rounds (q : Rat) (d : Decimal) : Prop where
  /-- No decimal lies between the two from below. -/
  below : ∀ e : Decimal, e.toRat ≤ q → e.toRat ≤ d.toRat
  /-- Nor from above. -/
  above : ∀ e : Decimal, q ≤ e.toRat → d.toRat ≤ e.toRat
  /-- What was rounded away is small. -/
  near : |d.toRat - q| * 2 ^ (93 : Nat) ≤ |q|

namespace Rounds

theorem refl (d : Decimal) : Rounds d.toRat d where
  below _ h := h
  above _ h := h
  near := by
    rw [sub_self, abs_zero, zero_mul]
    exact abs_nonneg _

theorem of_eq (h : d.toRat = q) : Rounds q d := h ▸ refl d

/-- What was rounded away, as a part of the exact number. -/
theorem abs_sub_le (h : Rounds q d) : |d.toRat - q| ≤ |q| / 2 ^ (93 : Nat) :=
  (le_div_iff₀ (by positivity)).mpr h.near

/-- **Exact as soon as it can be.** -/
theorem eq_of_representable (h : Rounds q d) (hq : Representable q) : d.toRat = q := by
  obtain ⟨e, rfl⟩ := hq
  exact le_antisymm (h.above e le_rfl) (h.below e le_rfl)

/-- **Exact, or no decimal would be.** -/
theorem eq_iff (h : Rounds q d) : d.toRat = q ↔ Representable q :=
  ⟨fun hd => ⟨d, hd⟩, h.eq_of_representable⟩

/-- The negative is next to the negative. -/
theorem neg (h : Rounds q d) : Rounds (-q) d.neg where
  below e he := by
    have hle := h.above e.neg (by rw [toRat_neg]; linarith)
    rw [toRat_neg] at hle ⊢
    linarith
  above e he := by
    have hle := h.below e.neg (by rw [toRat_neg]; linarith)
    rw [toRat_neg] at hle ⊢
    linarith
  near := by
    rw [toRat_neg, neg_sub_neg, abs_sub_comm, abs_neg]
    exact h.near

end Rounds

/-! ## Numbers that are decimals -/

/-- None of them is above the greatest coefficient. -/
theorem Representable.abs_le (h : Representable q) : |q| ≤ (maxCoeff : Rat) := by
  obtain ⟨e, rfl⟩ := h
  exact e.abs_toRat_le

theorem Representable.of_onGrid (hs : s ≤ maxScale) (h : OnGrid s q) (hend : q < gridEnd s) :
    Representable q := by
  obtain ⟨n, rfl⟩ := h
  have hpow : (0 : Rat) < ((10 ^ s : Nat) : Rat) := by positivity
  rw [gridEnd, div_lt_div_iff_of_pos_right hpow, Nat.cast_lt] at hend
  refine ⟨⟨false, n, s, hend, hs⟩, ?_⟩
  rw [toRat, coeff, if_neg Bool.false_ne_true, Int.cast_natCast]

/-! ## Rounding -/

/-- What dropping digits adds, in units of the exact number. -/
theorem toRat_sub_of_dropDigits {k : Nat} (hks : k ≤ s) (hcoeff : d.coeff = dropDigits c k)
    (hscale : d.scale = s - k) :
    d.toRat - (c : Rat) / ((10 ^ s : Nat) : Rat) =
      ((dropDigits c k * 10 ^ k - c : Int) : Rat) / ((10 ^ s : Nat) : Rat) := by
  obtain ⟨t, rfl⟩ : ∃ t, s = t + k := ⟨s - k, by omega⟩
  have ht : ((10 ^ t : Nat) : Rat) ≠ 0 := by positivity
  have hpow : ((10 ^ (t + k) : Nat) : Rat) ≠ 0 := by positivity
  have hd : d.toRat = (dropDigits c k * 10 ^ k : Int) / ((10 ^ (t + k) : Nat) : Rat) := by
    rw [toRat, hcoeff, hscale, Nat.add_sub_cancel, div_eq_div_iff ht hpow]
    push_cast
    ring
  rw [hd, ← sub_div, ← Int.cast_sub]

/-- **At most half a unit of the last digit** is rounded away. -/
theorem abs_toRat_sub_le_half (h : fit? c s = some d) :
    |d.toRat - (c : Rat) / ((10 ^ s : Nat) : Rat)| * (2 * ((10 ^ d.scale : Nat) : Rat)) ≤ 1 := by
  obtain ⟨k, -, hks, hcoeff, hscale, -⟩ := of_fit? h
  have hdropped : 2 * |dropDigits c k * 10 ^ k - c| ≤ 10 ^ k := by
    obtain ⟨hlow, hhigh⟩ := dropDigits_bounds c k
    have habs : |2 * (dropDigits c k * 10 ^ k - c)| ≤ 10 ^ k :=
      abs_le.mpr ⟨by linarith, by linarith⟩
    rwa [abs_mul, abs_of_pos (by decide : (0 : Int) < 2)] at habs
  have hpow : (0 : Rat) < ((10 ^ s : Nat) : Rat) := by positivity
  have hsplit : 10 ^ k * 10 ^ (s - k) = 10 ^ s := by
    rw [← Nat.pow_add, Nat.add_sub_cancel' hks]
  rw [toRat_sub_of_dropDigits hks hcoeff hscale, abs_div, abs_of_pos hpow, hscale,
    div_mul_eq_mul_div, div_le_one hpow, ← hsplit, Nat.cast_mul, ← mul_assoc]
  refine mul_le_mul_of_nonneg_right ?_ (Nat.cast_nonneg _)
  rw [mul_comm]
  exact_mod_cast hdropped

/-- **What is rounded away is small**, where the scale is in range, or where
more digits were dropped than it asks for: with one digit more the number did
not fit. -/
theorem abs_toRat_sub_le (hs : s ≤ maxScale ∨ d.scale < maxScale) (h : fit? c s = some d) :
    |d.toRat - (c : Rat) / ((10 ^ s : Nat) : Rat)| * 2 ^ (93 : Nat) ≤
      |(c : Rat) / ((10 ^ s : Nat) : Rat)| := by
  obtain ⟨k, -, hks, hcoeff, hscale, hprevious⟩ := of_fit? h
  -- Both sides, in units of the exact number.
  have hunits : |dropDigits c k * 10 ^ k - c| * 2 ^ (93 : Nat) ≤ |c| := by
    cases k with
    | zero => simp
    | succ j =>
      have hpow : (0 : Int) < 10 ^ j := Int.pow_pos (by decide)
      have hlarge : 2 ^ (96 : Nat) * 10 ^ j ≤ |dropDigits c j * 10 ^ j| := by
        have hbig : 2 ^ (96 : Nat) ≤ (dropDigits c j).natAbs := hprevious (by omega)
        rw [abs_mul, abs_of_pos hpow, Int.abs_eq_natAbs]
        exact mul_le_mul_of_nonneg_right (by omega) hpow.le
      have hbefore : |dropDigits c j * 10 ^ j - c| ≤ 10 ^ j := by
        obtain ⟨hlow, hhigh⟩ := dropDigits_bounds c j
        exact abs_le.mpr ⟨by linarith, by linarith⟩
      have hdropped : |dropDigits c (j + 1) * 10 ^ (j + 1) - c| ≤ 5 * 10 ^ j := by
        obtain ⟨hlow, hhigh⟩ := dropDigits_bounds c (j + 1)
        rw [pow_succ] at hlow hhigh ⊢
        exact abs_le.mpr ⟨by linarith, by linarith⟩
      have htriangle := abs_sub_abs_le_abs_sub (dropDigits c j * 10 ^ j) c
      linarith
  have hpow : (0 : Rat) < ((10 ^ s : Nat) : Rat) := by positivity
  rw [toRat_sub_of_dropDigits hks hcoeff hscale, abs_div, abs_div, abs_of_pos hpow,
    div_mul_eq_mul_div, div_le_div_iff_of_pos_right hpow]
  exact_mod_cast hunits

/-- A decimal that is not above the exact number is not above the rounded one. -/
theorem toRat_le_of_fit? (h : fit? c s = some d)
    (he : e.toRat ≤ (c : Rat) / ((10 ^ s : Nat) : Rat)) : e.toRat ≤ d.toRat := by
  have hscale : (0 : Rat) < ((10 ^ e.scale : Nat) : Rat) := by positivity
  have hpow : (0 : Rat) < ((10 ^ s : Nat) : Rat) := by positivity
  rw [toRat, div_le_div_iff₀ hscale hpow] at he
  exact le_iff.mp (le_fit? h (by exact_mod_cast he))

/-- Nor is one that is not below the exact number below the rounded one. -/
theorem le_toRat_of_fit? (h : fit? c s = some d)
    (he : (c : Rat) / ((10 ^ s : Nat) : Rat) ≤ e.toRat) : d.toRat ≤ e.toRat := by
  have hneg : fit? (-c) s = some d.neg := by rw [fit?_neg, h, Option.map_some]
  have hle : e.neg.toRat ≤ d.neg.toRat := toRat_le_of_fit? hneg <| by
    rw [toRat_neg, Int.cast_neg, neg_div]
    exact neg_le_neg he
  rw [toRat_neg, toRat_neg] at hle
  exact neg_le_neg_iff.mp hle

/-- **A number that was rounded is next to the exact one**, where the scale is
in range. -/
theorem rounds_fit? (hs : s ≤ maxScale) (h : fit? c s = some d) :
    Rounds ((c : Rat) / ((10 ^ s : Nat) : Rat)) d where
  below _ he := toRat_le_of_fit? h he
  above _ he := le_toRat_of_fit? h he
  near := abs_toRat_sub_le (.inl hs) h

/-! ## Sums and differences -/

/-- **A sum is next to the exact sum.** -/
theorem rounds_add? (h : a.add? b = some d) : Rounds (a.toRat + b.toRat) d := by
  unfold add? at h
  split at h
  · next hzero =>
    cases h
    exact .of_eq (by rw [toRat_of_isZero hzero, zero_add])
  · split at h
    · next hzero =>
      cases h
      exact .of_eq (by rw [toRat_of_isZero hzero, add_zero])
    · have hle := le_max_left a.scale b.scale
      have hle' := le_max_right a.scale b.scale
      have hrounds := rounds_fit? (max_le a.scale_le b.scale_le) h
      rwa [Int.cast_add, add_div, ← toRat_eq_coeffAt hle, ← toRat_eq_coeffAt hle'] at hrounds

/-- **A difference is next to the exact difference.** -/
theorem rounds_sub? (h : a.sub? b = some d) : Rounds (a.toRat - b.toRat) d := by
  rw [sub_eq_add_neg, ← toRat_neg]
  exact rounds_add? h

/-! ## Products -/

/-- A product is the exact one, or made of its digits by rounding. -/
theorem of_mul? (h : a.mul? b = some d) :
    d.toRat = a.toRat * b.toRat ∨ fit? (a.coeff * b.coeff) (a.scale + b.scale) = some d := by
  unfold mul? at h
  split at h
  · next hzero =>
    cases h
    left
    rw [toRat_zero]
    rcases Bool.or_eq_true_iff.mp hzero with ha | hb
    · rw [toRat_of_isZero ha, zero_mul]
    · rw [toRat_of_isZero hb, mul_zero]
  · exact .inr h

/-- The exact product, in digits and a scale. -/
theorem toRat_mul_toRat (a b : Decimal) :
    a.toRat * b.toRat =
      ((a.coeff * b.coeff : Int) : Rat) / ((10 ^ (a.scale + b.scale) : Nat) : Rat) := by
  rw [toRat, toRat, div_mul_div_comm, Nat.pow_add, Int.cast_mul, Nat.cast_mul]

/-- **A product with few fraction digits** is next to the exact one. -/
theorem rounds_mul? (hs : a.scale + b.scale ≤ maxScale) (h : a.mul? b = some d) :
    Rounds (a.toRat * b.toRat) d := by
  rcases of_mul? h with hexact | hfit
  · exact .of_eq hexact
  · rw [toRat_mul_toRat]
    exact rounds_fit? hs hfit

/-- **A decimal that is not above the exact product** is not above the rounded
one. -/
theorem toRat_le_of_mul? (h : a.mul? b = some d) (he : e.toRat ≤ a.toRat * b.toRat) :
    e.toRat ≤ d.toRat := by
  rcases of_mul? h with hexact | hfit
  · rwa [hexact]
  · rw [toRat_mul_toRat] at he
    exact toRat_le_of_fit? hfit he

/-- Nor is one that is not below the exact product below the rounded one. -/
theorem le_toRat_of_mul? (h : a.mul? b = some d) (he : a.toRat * b.toRat ≤ e.toRat) :
    d.toRat ≤ e.toRat := by
  rcases of_mul? h with hexact | hfit
  · rwa [hexact]
  · rw [toRat_mul_toRat] at he
    exact le_toRat_of_fit? hfit he

/-- **A product that is a decimal is exact.** -/
theorem toRat_mul?_of_representable (h : a.mul? b = some d)
    (hexact : Representable (a.toRat * b.toRat)) : d.toRat = a.toRat * b.toRat := by
  obtain ⟨e, he⟩ := hexact
  rw [← he]
  exact le_antisymm (le_toRat_of_mul? h he.ge) (toRat_le_of_mul? h he.le)

/-- **What a product rounds away** is small, or half a unit of the finest
scale. -/
theorem abs_toRat_mul?_sub_le (h : a.mul? b = some d) :
    |d.toRat - a.toRat * b.toRat| ≤
      |a.toRat * b.toRat| / 2 ^ (93 : Nat) + 1 / (2 * 10 ^ (28 : Nat)) := by
  have hbig : (0 : Rat) < 2 ^ (93 : Nat) := by positivity
  have hfine : (0 : Rat) < 2 * 10 ^ (28 : Nat) := by positivity
  have hsmall : 0 ≤ |a.toRat * b.toRat| / 2 ^ (93 : Nat) := by positivity
  have hunit : (0 : Rat) ≤ 1 / (2 * 10 ^ (28 : Nat)) := by positivity
  rcases of_mul? h with hexact | hfit
  · rw [hexact, sub_self, abs_zero]
    exact add_nonneg hsmall hunit
  · rw [toRat_mul_toRat] at hsmall ⊢
    rcases Nat.lt_or_eq_of_le d.scale_le with hcoarse | hfinest
    · have hle := (le_div_iff₀ hbig).mpr (abs_toRat_sub_le (.inr hcoarse) hfit)
      exact hle.trans (le_add_of_nonneg_right hunit)
    · have hhalf := abs_toRat_sub_le_half hfit
      have hten : ((10 ^ d.scale : Nat) : Rat) = 10 ^ (28 : Nat) := by
        rw [hfinest, Nat.cast_pow]
        rfl
      rw [hten, ← le_div_iff₀ hfine] at hhalf
      exact hhalf.trans (le_add_of_nonneg_left hsmall)

end Decimal

end ChainLedger
