import ChainLedger.Proofs.Decimal.Quotient

/-!
# Quotients of a part by its whole

A quotient that is not above one has no more digits than its scale, so there
is room for all the digits that a round may add (`digits_mul_pow_lt`), and the
development ends when nothing is left over or at the finest scale
(`exists_develop_near`). So at most half a unit of the finest scale is rounded
away (`abs_toRat_div_sub_le`).
-/

namespace ChainLedger

-- A power is the one of the core library, whatever other structure is in scope.
attribute [local instance (2000)] instPowNat

namespace Decimal

variable {a b d : Decimal} {divisor digits n p : Nat} {v : Rat} {q : Quotient} {r : Nat × Int}

/-- Digits with room for so many more grow by all of them. -/
theorem growth_eq (h : digits * 10 ^ n < coeffBound) : growth digits n = n := by
  cases n with
  | zero => rfl
  | succ n => rw [growth, if_pos h]

/-- **Digits at a scale of their own**, that are a number up to half a unit of
the finest scale. -/
structure Near (v : Rat) (r : Nat × Int) : Prop where
  scale_nonneg : 0 ≤ r.2
  near : |(r.1 : Rat) / 10 ^ r.2 - v| * (2 * 10 ^ (28 : Nat)) ≤ 1

theorem Near.of_eq (hs : 0 ≤ r.2) (h : (r.1 : Rat) / 10 ^ r.2 = v) : Near v r where
  scale_nonneg := hs
  near := by
    rw [h, sub_self, abs_zero, zero_mul]
    exact zero_le_one

/-! ## One round -/

/-- **There is room for more digits** up to the finest scale. -/
theorem digits_mul_pow_lt (hv : q.toRat divisor ≤ 1) (hs : q.scale + p ≤ 28) :
    q.digits * 10 ^ p < coeffBound := by
  have hscale : (0 : Rat) < 10 ^ q.scale := zpow_pos (by norm_num) _
  have hten : (0 : Rat) < 10 ^ p := by positivity
  have hdigits : (q.digits : Rat) ≤ 10 ^ q.scale :=
    (q.digits_le divisor).trans (mul_le_of_le_one_left hscale.le hv)
  have hpow : (10 : Rat) ^ q.scale * 10 ^ p ≤ 10 ^ (28 : Nat) := by
    rw [← zpow_natCast, ← zpow_add₀ (by norm_num), ← zpow_natCast]
    exact zpow_le_zpow_right₀ (by norm_num) hs
  have hle : ((q.digits * 10 ^ p : Nat) : Rat) ≤ ((10 ^ (28 : Nat) : Nat) : Rat) := by
    rw [Nat.cast_mul, Nat.cast_pow, Nat.cast_pow, Nat.cast_ofNat]
    exact (mul_le_mul_of_nonneg_right hdigits hten.le).trans hpow
  exact (Nat.cast_le.mp hle).trans_lt (by decide)

/-- The quotient fits again after a round. -/
theorem Quotient.Fits.grow (hq : q.Fits divisor) (hv : q.toRat divisor ≤ 1)
    (hs : q.scale + p ≤ 28) : (q.grow divisor p).Fits divisor := by
  have hd : 0 < divisor := (Nat.zero_le _).trans_lt hq.rest_lt
  have hv' : (q.grow divisor p).toRat divisor ≤ 1 := (q.toRat_grow hd p).trans_le hv
  have hroom : (q.grow divisor p).digits * 10 ^ (0 : Nat) < coeffBound :=
    digits_mul_pow_lt hv' (by rw [Int.natCast_zero, Int.add_zero]; exact hs)
  exact ⟨Nat.mod_lt _ hd, by simpa using hroom, hs⟩

/-- **A round ends the development or adds digits**: it ends where nothing is
left over, and at the finest scale. -/
theorem develop_cases (hq : q.Fits divisor) (hv : q.toRat divisor ≤ 1) (n : Nat) :
    (q.rest = 0 ∧ 0 ≤ q.scale ∧ develop divisor (n + 1) q = some (q.digits, q.scale)) ∨
      (q.scale = 28 ∧ develop divisor (n + 1) q = roundRest q divisor) ∨
      ∃ p : Nat, 0 < p ∧ q.scale + p ≤ 28 ∧
        develop divisor (n + 1) q = develop divisor n (q.grow divisor p) := by
  have hscale := hq.scale_le
  -- A round that adds digits goes on: these have room, and so has what comes of them.
  have hgrows {p : Nat} (hs : q.scale + p ≤ 28) :
      (if coeffBound ≤ q.digits * 10 ^ p then none
        else if q.digits * 10 ^ p + q.rest * 10 ^ p / divisor < coeffBound then
          develop divisor n
            ⟨q.digits * 10 ^ p + q.rest * 10 ^ p / divisor, q.rest * 10 ^ p % divisor, q.scale + p⟩
        else dropLast (q.digits * 10 ^ p + q.rest * 10 ^ p / divisor)
          (q.rest * 10 ^ p % divisor ≠ 0) (q.scale + p)) =
        develop divisor n (q.grow divisor p) := by
    have hfits : q.digits * 10 ^ p + q.rest * 10 ^ p / divisor < coeffBound :=
      (hq.grow hv hs).digits_lt
    rw [if_neg (not_le.mpr (digits_mul_pow_lt hv hs)), if_pos hfits]
    rfl
  by_cases hrest : q.rest = 0
  · rcases le_or_gt 0 q.scale with hs | hs
    · exact .inl ⟨hrest, hs, by rw [develop, if_pos ⟨hrest, hs⟩]⟩
    · refine .inr (.inr ⟨min 9 (-q.scale).toNat, by omega, by omega, ?_⟩)
      rw [develop, if_neg (fun h => absurd h.2 (not_le.mpr hs))]
      simp only [if_pos hrest]
      rw [if_neg (fun h => h.1 hrest)]
      exact hgrows (by omega)
  · have hunfinished : ¬ (q.rest = 0 ∧ 0 ≤ q.scale) := fun h => hrest h.1
    have hgrowth : growth q.digits (min 9 (28 - q.scale).toNat) = min 9 (28 - q.scale).toNat :=
      growth_eq (digits_mul_pow_lt hv (by omega))
    rcases hscale.lt_or_eq with hs | hs
    · refine .inr (.inr ⟨min 9 (28 - q.scale).toNat, by omega, by omega, ?_⟩)
      rw [develop, if_neg hunfinished]
      simp only [if_neg hrest, hgrowth]
      rw [if_neg (fun h => by omega)]
      exact hgrows (by omega)
    · refine .inr (.inl ⟨hs, ?_⟩)
      rw [develop, if_neg hunfinished]
      simp only [if_neg hrest, hgrowth]
      rw [if_pos ⟨hrest, by omega⟩, if_neg (by omega)]

/-! ## The development -/

/-- The digits of a part at the finest scale leave room for one more unit. -/
theorem digits_succ_lt (hv : q.toRat divisor ≤ 1) (hs : q.scale = 28) :
    q.digits + 1 < coeffBound := by
  have hdigits : q.digits ≤ 10 ^ (28 : Nat) := by
    have hle := (q.digits_le divisor).trans
      (mul_le_of_le_one_left (zpow_pos (by norm_num) q.scale).le hv)
    rw [hs] at hle
    exact_mod_cast hle
  have hbound : 10 ^ (28 : Nat) + 1 < coeffBound := by decide
  omega

/-- Half a unit of the last digit is half a unit of the finest scale. -/
theorem near_of_abs_sub_le {m : Nat} (hs : q.scale = 28)
    (h : |(m : Rat) - (q.digits + (q.rest : Rat) / divisor)| ≤ 1 / 2) :
    Near (q.toRat divisor) (m, q.scale) := by
  have hpow : (0 : Rat) < 10 ^ (28 : Int) := by positivity
  refine ⟨by simp only [hs]; omega, ?_⟩
  rw [Quotient.toRat]
  simp only [hs]
  rw [← sub_div, abs_div, abs_of_pos hpow, div_mul_eq_mul_div, div_le_one hpow]
  have hsame : (10 : Rat) ^ (28 : Int) = 10 ^ (28 : Nat) := by norm_num
  rw [hsame]
  have hpos : (0 : Rat) ≤ 2 * 10 ^ (28 : Nat) := by positivity
  have hmul := mul_le_mul_of_nonneg_right h hpos
  linarith

/-- **The last digit is rounded** by half a unit. -/
theorem exists_roundRest_near (hq : q.Fits divisor) (hv : q.toRat divisor ≤ 1)
    (hs : q.scale = 28) : ∃ r, roundRest q divisor = some r ∧ Near (q.toRat divisor) r := by
  have hd : (0 : Rat) < divisor := Nat.cast_pos.mpr ((Nat.zero_le _).trans_lt hq.rest_lt)
  have hrest : (q.rest : Rat) < divisor := Nat.cast_lt.mpr hq.rest_lt
  unfold roundRest
  simp only [if_pos (digits_succ_lt hv hs)]
  split
  · next hup =>
    refine ⟨_, rfl, near_of_abs_sub_le hs ?_⟩
    have hhalf : (divisor : Rat) ≤ 2 * q.rest := by
      have hle : divisor ≤ 2 * q.rest := by omega
      exact_mod_cast hle
    have hfraction : 1 / 2 ≤ (q.rest : Rat) / divisor := by
      rw [div_le_div_iff₀ (by norm_num) hd]
      linarith
    have hone : (q.rest : Rat) / divisor ≤ 1 := (div_le_one hd).mpr hrest.le
    rw [abs_le]
    push_cast
    constructor <;> linarith
  · next hdown =>
    refine ⟨_, rfl, near_of_abs_sub_le hs ?_⟩
    have hhalf : 2 * (q.rest : Rat) ≤ divisor := by
      have hle : 2 * q.rest ≤ divisor := by omega
      exact_mod_cast hle
    have hfraction : (q.rest : Rat) / divisor ≤ 1 / 2 := by
      rw [div_le_div_iff₀ hd (by norm_num)]
      linarith
    have hnonneg : 0 ≤ (q.rest : Rat) / divisor := by positivity
    rw [abs_le]
    constructor <;> linarith

/-- **A quotient that is not above one is developed** up to half a unit of the
finest scale, if there are rounds enough: every one of them adds a digit. -/
theorem exists_develop_near (hq : q.Fits divisor) (hv : q.toRat divisor ≤ 1)
    (hn : 28 - q.scale ≤ n) :
    ∃ r, develop divisor (n + 1) q = some r ∧ Near (q.toRat divisor) r := by
  induction n generalizing q with
  | zero =>
    have hscale := hq.scale_le
    rcases develop_cases hq hv 0 with ⟨hrest, hs, h⟩ | ⟨hs, h⟩ | ⟨p, hp, hs, -⟩
    · exact ⟨_, h, .of_eq hs (by simp [Quotient.toRat, hrest])⟩
    · rw [h]
      exact exists_roundRest_near hq hv hs
    · omega
  | succ n ih =>
    rcases develop_cases hq hv (n + 1) with ⟨hrest, hs, h⟩ | ⟨hs, h⟩ | ⟨p, hp, hs, h⟩
    · exact ⟨_, h, .of_eq hs (by simp [Quotient.toRat, hrest])⟩
    · rw [h]
      exact exists_roundRest_near hq hv hs
    · have hd : 0 < divisor := (Nat.zero_le _).trans_lt hq.rest_lt
      have hsame := q.toRat_grow hd p
      rw [h, ← hsame]
      refine ih (hq.grow hv hs) (hsame.trans_le hv) ?_
      show 28 - (q.scale + p) ≤ n
      omega

/-! ## Parts of a whole -/

/-- A number above zero has no minus. -/
theorem negative_eq_false (h : 0 < d.toRat) : d.negative = false := by
  have hcoeff : ¬ d.coeff ≤ 0 := by rw [← le_zero_iff, le_iff, toRat_zero, not_le]; exact h
  unfold coeff at hcoeff
  cases hsign : d.negative
  · rfl
  · rw [hsign, if_pos rfl] at hcoeff
    omega

/-- **The quotient of a part by its whole** is not negative, and the exact one
up to half a unit of the finest scale. -/
theorem abs_toRat_div_sub_le (ha : 0 ≤ a.toRat) (hle : a.toRat ≤ b.toRat) (hb : 0 < b.toRat)
    (h : a.div b = .ok d) :
    0 ≤ d.toRat ∧ |d.toRat - a.toRat / b.toRat| * (2 * 10 ^ (28 : Nat)) ≤ 1 := by
  have hbzero : ¬ b.isZero = true := fun hzero => hb.ne' (toRat_of_isZero hzero)
  unfold div at h
  rw [if_neg hbzero] at h
  split at h
  · next hazero =>
    cases h
    rw [toRat_zero, toRat_of_isZero hazero, zero_div, sub_self, abs_zero, zero_mul]
    exact ⟨le_rfl, zero_le_one⟩
  · next hazero =>
    have hd : 0 < b.digits := by
      refine Nat.pos_of_ne_zero fun hzero => hbzero ?_
      simpa [isZero] using hzero
    have hscale := a.scale_le
    have hvalue : |a.toRat| / |b.toRat| = a.toRat / b.toRat := by
      rw [abs_of_nonneg ha, abs_of_pos hb]
    have hstart := toRat_start (a := a) hb.ne'
    have hone : a.toRat / b.toRat ≤ 1 := (div_le_one hb).mpr hle
    obtain ⟨r, hr, hnear⟩ := exists_develop_near
      (q := ⟨a.digits / b.digits, a.digits % b.digits, (a.scale : Int) - b.scale⟩) (n := 63)
      ⟨Nat.mod_lt _ hd, (Nat.div_le_self _ _).trans_lt a.digits_lt, by simp only; omega⟩
      (by rw [hstart, hvalue]; exact hone) (by have := b.scale_le; simp only; omega)
    rw [hstart, hvalue] at hnear
    simp only [hr] at h
    generalize hshort : (if a.digits % b.digits = 0 then (r.1, r.2.toNat)
      else dropQuotientZeros (r.1, r.2.toNat)) = short at h
    have hshortens : Shortens (r.1, r.2.toNat) short := by
      rw [← hshort]
      split
      · exact .refl _
      · exact shortens_dropQuotientZeros _
    have hapos : 0 < a.toRat := lt_of_le_of_ne ha fun hzero => hazero (isZero_of_toRat hzero.symm)
    rw [negative_eq_false hapos, negative_eq_false hb, if_pos rfl, Int.one_mul] at h
    split at h
    · next hparts =>
      cases h
      obtain ⟨hcoeff, hplaces⟩ := coeff_of_ofParts? hparts
      have hpow : ((10 ^ r.2.toNat : Nat) : Rat) = 10 ^ r.2 := by
        rw [Nat.cast_pow, Nat.cast_ofNat, ← zpow_natCast, Int.toNat_of_nonneg hnear.scale_nonneg]
      have hquotient : d.toRat = (r.1 : Rat) / 10 ^ r.2 := by
        rw [toRat, hcoeff, hplaces, Int.cast_natCast, hshortens.value, hpow]
      rw [hquotient]
      exact ⟨by positivity, hnear.near⟩
    · cases h

end Decimal

end ChainLedger
