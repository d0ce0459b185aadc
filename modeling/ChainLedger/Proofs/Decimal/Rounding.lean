import ChainLedger.Decimal.Arithmetic
import Mathlib.Algebra.Order.Ring.Rat
import Mathlib.Tactic.FieldSimp
import Mathlib.Tactic.Linarith
import Mathlib.Tactic.Positivity
import Mathlib.Tactic.Ring

/-!
# Rounding does not cross a decimal

An exact number that does not fit loses digits, half to even. What is left is
at most half a unit of its last digit away (`dropDigits_bounds`), and as many
digits are kept as fit (`of_fit?`). So a decimal that is not above the exact
number is not above the rounded one either (`le_fit?`): if it has no more
fraction digits it is itself a candidate of the rounding, and if it has more
it is too small for the digits that did not fit. In particular a sum with a
number that is not negative is not below its other operand
(`toRat_le_add?`), however much of it is rounded away.
-/

namespace ChainLedger

-- A power is the one of the core library, whatever other structure is in scope.
attribute [local instance (2000)] instPowNat

namespace Decimal

variable {a b d r : Decimal} {c : Int} {s k : Nat}

/-! ## Values -/

/-- Comparison is by value. -/
theorem le_iff : a ≤ b ↔ a.toRat ≤ b.toRat := by
  show a.coeff * 10 ^ b.scale ≤ b.coeff * 10 ^ a.scale ↔ _
  have ha : (0 : Rat) < ((10 ^ a.scale : Nat) : Rat) := by positivity
  have hb : (0 : Rat) < ((10 ^ b.scale : Nat) : Rat) := by positivity
  rw [toRat, toRat, div_le_div_iff₀ ha hb, ← Int.cast_le (R := Rat)]
  push_cast
  rfl

/-- Two decimals are the same by value. -/
theorem sameValue_iff : a.sameValue b = true ↔ a.toRat = b.toRat := by
  have ha : ((10 ^ a.scale : Nat) : Rat) ≠ 0 := by positivity
  have hb : ((10 ^ b.scale : Nat) : Rat) ≠ 0 := by positivity
  rw [sameValue, beq_iff_eq, toRat, toRat, div_eq_div_iff ha hb, ← Int.cast_inj (α := Rat)]
  push_cast
  rfl

/-! ## Half a unit -/

/-- Half to even is at most half a unit away. -/
theorem roundHalfEven_bounds {n m : Nat} (hm : 0 < m) :
    2 * n ≤ 2 * (roundHalfEven n m * m) + m ∧ 2 * (roundHalfEven n m * m) ≤ 2 * n + m := by
  have hn : n / m * m + n % m = n := Nat.div_add_mod' n m
  have hr : n % m < m := Nat.mod_lt n hm
  have hup : (n / m + 1) * m = n / m * m + m := Nat.succ_mul _ _
  unfold roundHalfEven
  simp only
  split
  · omega
  · split
    · split <;> omega
    · omega

/-- What is left after some digits were dropped is at most half a unit of the
last digit away. -/
theorem dropDigits_bounds (c : Int) (k : Nat) :
    2 * c ≤ 2 * (dropDigits c k * 10 ^ k) + 10 ^ k ∧
      2 * (dropDigits c k * 10 ^ k) ≤ 2 * c + 10 ^ k := by
  have h := roundHalfEven_bounds (n := c.natAbs) (Nat.pow_pos (n := k) (by decide : 0 < 10))
  have hpow : ((10 ^ k : Nat) : Int) = 10 ^ k := by push_cast; rfl
  unfold dropDigits withSign
  generalize roundHalfEven c.natAbs (10 ^ k) = q at h ⊢
  have hq : ((q * 10 ^ k : Nat) : Int) = q * 10 ^ k := by push_cast; rfl
  split
  · rw [Int.neg_mul]
    omega
  · omega

/-- The sign stays. -/
theorem dropDigits_sign (c : Int) (k : Nat) :
    (c < 0 → dropDigits c k ≤ 0) ∧ (0 ≤ c → 0 ≤ dropDigits c k) := by
  unfold dropDigits withSign
  split <;> omega

@[simp] theorem dropDigits_zero (c : Int) : dropDigits c 0 = c := by
  have h := dropDigits_bounds c 0
  rw [Int.pow_zero, Int.mul_one] at h
  omega

/-! ## As many digits as fit -/

theorem of_fitFrom {n k₀ : Nat} (hk₀ : s - k₀ ≤ maxScale) (h : fitFrom c s n k₀ = some r) :
    ∃ k, k₀ ≤ k ∧ k ≤ k₀ + n ∧ r.coeff = dropDigits c k ∧ r.scale = s - k ∧
      (k₀ < k → coeffBound ≤ (dropDigits c (k - 1)).natAbs) := by
  induction n generalizing k₀ with
  | zero =>
    obtain ⟨hcoeff, hscale⟩ := coeff_of_ofParts? h
    exact ⟨k₀, le_rfl, le_rfl, hcoeff, hscale, fun hlt => absurd hlt (lt_irrefl _)⟩
  | succ n ih =>
    rw [fitFrom] at h
    cases hparts : ofParts? (dropDigits c k₀) (s - k₀) with
    | some d =>
      rw [hparts] at h
      cases h
      obtain ⟨hcoeff, hscale⟩ := coeff_of_ofParts? hparts
      exact ⟨k₀, le_rfl, by omega, hcoeff, hscale, fun hlt => absurd hlt (lt_irrefl _)⟩
    | none =>
      rw [hparts] at h
      have hbig : coeffBound ≤ (dropDigits c k₀).natAbs := by
        unfold ofParts? at hparts
        split at hparts
        · cases hparts
        · next hnot => exact not_lt.mp fun hlt => hnot ⟨hlt, hk₀⟩
      obtain ⟨k, hk, hkn, hcoeff, hscale, hprevious⟩ := ih (by omega) h
      refine ⟨k, by omega, by omega, hcoeff, hscale, fun _ => ?_⟩
      rcases Nat.eq_or_lt_of_le hk with rfl | hlt
      · rwa [Nat.add_sub_cancel]
      · exact hprevious hlt

/-- **The fewest digits are dropped**: with one digit more the result would not
fit. -/
theorem of_fit? (h : fit? c s = some r) :
    ∃ k, s - maxScale ≤ k ∧ k ≤ s ∧ r.coeff = dropDigits c k ∧ r.scale = s - k ∧
      (s - maxScale < k → coeffBound ≤ (dropDigits c (k - 1)).natAbs) := by
  obtain ⟨k, hk, hks, hrest⟩ := of_fitFrom (by omega) h
  exact ⟨k, hk, by omega, hrest⟩

/-! ## What rounding does not cross -/

theorem coeff_bounds (d : Decimal) : -(2 ^ (96 : Nat)) < d.coeff ∧ d.coeff < 2 ^ (96 : Nat) := by
  have h := d.digits_lt
  rw [← natAbs_coeff] at h
  omega

/-- An integer that is not above the exact number is not above the rounded
one. -/
theorem le_dropDigits {m : Int} (h : m * 10 ^ k ≤ c) : m ≤ dropDigits c k := by
  have hbounds := (dropDigits_bounds c k).1
  have hpow : (0 : Int) < 10 ^ k := Int.pow_pos (by decide)
  by_contra hlt
  have hmul : (dropDigits c k + 1) * 10 ^ k ≤ m * 10 ^ k :=
    mul_le_mul_of_nonneg_right (by omega) hpow.le
  rw [add_mul, one_mul] at hmul
  omega

/-- A coefficient that is not above the exact number, at a finer unit than the
last digit that is kept, is not above the rounded one at that unit: with one
digit more the number did not fit, and a coefficient does. -/
theorem coeff_le_dropDigits {j : Nat} (hbig : 2 ^ (96 : Nat) ≤ (dropDigits c k).natAbs)
    (h : d.coeff * 10 ^ k ≤ c * 10 ^ j) : d.coeff ≤ dropDigits c (k + 1) * 10 ^ (j + 1) := by
  obtain ⟨-, hd⟩ := d.coeff_bounds
  obtain ⟨hlow, hhigh⟩ := dropDigits_bounds c k
  obtain ⟨hlow', hhigh'⟩ := dropDigits_bounds c (k + 1)
  have hpow : (0 : Int) < 10 ^ k := Int.pow_pos (by decide)
  have hfine : (1 : Int) ≤ 10 ^ j := Int.pow_pos (by decide)
  rcases lt_or_ge c 0 with hc | hc
  · -- A negative number that does not fit is below every coefficient.
    have hneg := (dropDigits_sign c k).1 hc
    have hle : c * 10 ^ j ≤ c := by nlinarith
    have hclose : d.coeff ≤ dropDigits c k := le_dropDigits (h.trans hle)
    have := d.coeff_bounds.1
    omega
  · have hpos := (dropDigits_sign c k).2 hc
    have hpos' := (dropDigits_sign c (k + 1)).2 hc
    -- Rounded once more, the number is still a tenth of what did not fit.
    have hunits : 2 * dropDigits c k ≤ 20 * dropDigits c (k + 1) + 11 := by
      rw [pow_succ] at hlow' hhigh'
      by_contra hlt
      have hmul := mul_lt_mul_of_pos_right (not_le.mp hlt) hpow
      linarith
    have htenth : d.coeff ≤ dropDigits c (k + 1) * 10 := by omega
    have hgrow : dropDigits c (k + 1) * 10 ≤ dropDigits c (k + 1) * 10 ^ (j + 1) := by
      rw [pow_succ]
      nlinarith
    exact htenth.trans hgrow

/-- **A decimal that is not above the exact number is not above the rounded
one.** -/
theorem le_fit? (h : fit? c s = some r) (hd : d.coeff * 10 ^ s ≤ c * 10 ^ d.scale) : d ≤ r := by
  obtain ⟨k, hk, hks, hcoeff, hscale, hprevious⟩ := of_fit? h
  show d.coeff * 10 ^ r.scale ≤ r.coeff * 10 ^ d.scale
  rw [hcoeff, hscale]
  obtain ⟨t, rfl⟩ : ∃ t, s = t + k := ⟨s - k, by omega⟩
  rw [Nat.add_sub_cancel]
  have hdpow : (0 : Int) < 10 ^ d.scale := Int.pow_pos (by decide)
  have htpow : (0 : Int) < 10 ^ t := Int.pow_pos (by decide)
  have hdscale : d.scale ≤ maxScale := d.scale_le
  rcases le_or_gt d.scale t with hcoarse | hfine
  · obtain ⟨j, rfl⟩ : ∃ j, t = d.scale + j := ⟨t - d.scale, by omega⟩
    have hint : d.coeff * 10 ^ j * 10 ^ k ≤ c := by
      refine le_of_mul_le_mul_right ?_ hdpow
      calc d.coeff * 10 ^ j * 10 ^ k * 10 ^ d.scale
          = d.coeff * 10 ^ (d.scale + j + k) := by ring
        _ ≤ c * 10 ^ d.scale := hd
    calc d.coeff * 10 ^ (d.scale + j) = d.coeff * 10 ^ j * 10 ^ d.scale := by ring
      _ ≤ dropDigits c k * 10 ^ d.scale :=
        mul_le_mul_of_nonneg_right (le_dropDigits hint) hdpow.le
  · obtain ⟨j, hj⟩ : ∃ j, d.scale = t + (j + 1) := ⟨d.scale - t - 1, by omega⟩
    cases k with
    | zero => rwa [dropDigits_zero]
    | succ k =>
      have hbig := hprevious (by omega)
      have hexact : d.coeff * 10 ^ k ≤ c * 10 ^ j := by
        refine le_of_mul_le_mul_right ?_ (mul_pos htpow (by decide : (0 : Int) < 10))
        calc d.coeff * 10 ^ k * (10 ^ t * 10) = d.coeff * 10 ^ (t + (k + 1)) := by ring
          _ ≤ c * 10 ^ d.scale := hd
          _ = c * 10 ^ j * (10 ^ t * 10) := by rw [hj]; ring
      calc d.coeff * 10 ^ t ≤ dropDigits c (k + 1) * 10 ^ (j + 1) * 10 ^ t :=
          mul_le_mul_of_nonneg_right (coeff_le_dropDigits hbig hexact) htpow.le
        _ = dropDigits c (k + 1) * 10 ^ d.scale := by rw [hj]; ring

/-! ## Sums -/

/-- The coefficient at a larger scale. -/
theorem coeffAt_mul (hs : d.scale ≤ s) : d.coeffAt s * 10 ^ d.scale = d.coeff * 10 ^ s := by
  obtain ⟨j, rfl⟩ : ∃ j, s = d.scale + j := ⟨s - d.scale, by omega⟩
  rw [coeffAt, Nat.add_sub_cancel_left]
  ring

/-- **A sum with a number that is not negative** is not below its other
operand. -/
theorem toRat_le_add? (hb : zero ≤ b) (h : a.add? b = some d) : a.toRat ≤ d.toRat := by
  have hb' : 0 ≤ b.coeff := by
    have hb : 0 * 10 ^ b.scale ≤ b.coeff * 10 ^ (0 : Nat) := hb
    simpa using hb
  rw [← le_iff]
  unfold add? at h
  split at h
  · next hzero =>
    cases h
    have ha : a.coeff = 0 := (coeff_eq_zero_iff a).mpr (by simpa [isZero] using hzero)
    show a.coeff * 10 ^ b.scale ≤ b.coeff * 10 ^ a.scale
    rw [ha, Int.zero_mul]
    exact mul_nonneg hb' (Int.pow_pos (by decide)).le
  · split at h
    · cases h
      exact le_iff.mpr le_rfl
    · refine le_fit? h ?_
      rw [add_mul, coeffAt_mul (le_max_left _ _)]
      have hrest : 0 ≤ b.coeffAt (max a.scale b.scale) * 10 ^ a.scale :=
        mul_nonneg (mul_nonneg hb' (Int.pow_pos (by decide)).le) (Int.pow_pos (by decide)).le
      omega

end Decimal

end ChainLedger
