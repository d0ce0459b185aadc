import ChainLedger.Proofs.Decimal.Range

/-!
# Sums on a grid do not round

Numbers that are multiples of `10 ^ -s`, whatever scale the decimals are
written with, are added and subtracted exactly as long as the result has fewer
units than the bound on coefficients: digits are dropped only while the
coefficient does not fit, and those that are dropped are zeros
(`exists_fit?_of_units`).
-/

namespace ChainLedger

-- A power is the one of the core library, whatever other structure is in scope.
attribute [local instance (2000)] instPowNat

namespace Decimal

variable {a b d : Decimal} {c n : Int} {s S k : Nat} {q q' : Rat}

/-- **The number is on the grid**: a multiple of `10 ^ -s` that is not
negative. -/
def OnGrid (s : Nat) (q : Rat) : Prop :=
  ∃ n : Nat, q = (n : Rat) / ((10 ^ s : Nat) : Rat)

/-- **The end of the grid**: so many units are more than any coefficient. -/
def gridEnd (s : Nat) : Rat := (coeffBound : Rat) / ((10 ^ s : Nat) : Rat)

theorem OnGrid.zero : OnGrid s 0 := ⟨0, by simp⟩

theorem OnGrid.nonneg (h : OnGrid s q) : 0 ≤ q := by
  obtain ⟨n, rfl⟩ := h
  positivity

theorem OnGrid.add (h : OnGrid s q) (h' : OnGrid s q') : OnGrid s (q + q') := by
  obtain ⟨n, rfl⟩ := h
  obtain ⟨m, rfl⟩ := h'
  exact ⟨n + m, by rw [Nat.cast_add, add_div]⟩

theorem OnGrid.sub (h : OnGrid s q) (h' : OnGrid s q') (hle : q' ≤ q) : OnGrid s (q - q') := by
  obtain ⟨n, rfl⟩ := h
  obtain ⟨m, rfl⟩ := h'
  have hpow : (0 : Rat) < ((10 ^ s : Nat) : Rat) := by positivity
  rw [div_le_div_iff_of_pos_right hpow, Nat.cast_le] at hle
  exact ⟨n - m, by rw [Nat.cast_sub hle, sub_div]⟩

/-- A decimal that is not negative is on the grid of its scale, and on any finer
one. -/
theorem onGrid_of_scale_le (hd : 0 ≤ d.toRat) (hs : d.scale ≤ s) : OnGrid s d.toRat := by
  obtain ⟨n, hn⟩ := Int.eq_ofNat_of_zero_le (coeffAt_nonneg hd s)
  exact ⟨n, by rw [toRat_eq_coeffAt hs, hn, Int.cast_natCast]⟩

/-! ## Dropping zeros -/

/-- Zeros are dropped without a trace. -/
theorem dropDigits_mul (c : Int) (k : Nat) : dropDigits (c * 10 ^ k) k = c :=
  le_antisymm (dropDigits_le le_rfl) (le_dropDigits le_rfl)

/-- **A whole number of units fits as it is** if it has fewer units than the
bound: what does not fit the coefficient is zeros. -/
theorem exists_fit?_of_units (hs : s ≤ maxScale) (hn : n.natAbs < coeffBound)
    (h : c * 10 ^ s = n * 10 ^ S) :
    ∃ d, fit? c S = some d ∧ d.toRat = (c : Rat) / ((10 ^ S : Nat) : Rat) := by
  have hspow : 0 < 10 ^ s := Nat.pow_pos (by decide)
  have habs : c.natAbs * 10 ^ s = n.natAbs * 10 ^ S := by
    have hcongr := congrArg Int.natAbs h
    rwa [Int.natAbs_mul, Int.natAbs_mul, Int.natAbs_pow, Int.natAbs_pow] at hcongr
  have hrange : c.natAbs ≤ maxCoeff * 10 ^ S := by
    calc c.natAbs ≤ c.natAbs * 10 ^ s := Nat.le_mul_of_pos_right _ hspow
      _ = n.natAbs * 10 ^ S := habs
      _ ≤ maxCoeff * 10 ^ S := Nat.mul_le_mul_right _ (Nat.le_sub_one_of_lt hn)
  obtain ⟨d, hd⟩ := exists_fit? hrange
  refine ⟨d, hd, ?_⟩
  obtain ⟨k, -, hkS, hcoeff, hscale, hprevious⟩ := of_fit? hd
  -- What was dropped is zeros, or with one digit more the units would have fitted.
  have hzeros : ∃ m : Int, c = m * 10 ^ k := by
    rcases Nat.lt_or_ge S (k + s) with hlong | hshort
    · cases k with
      | zero => exact ⟨c, by rw [Int.pow_zero, Int.mul_one]⟩
      | succ k =>
        have hfits : c.natAbs ≤ n.natAbs * 10 ^ k := by
          refine Nat.le_of_mul_le_mul_right ?_ hspow
          calc c.natAbs * 10 ^ s = n.natAbs * 10 ^ S := habs
            _ ≤ n.natAbs * 10 ^ (k + s) :=
              Nat.mul_le_mul_left _ (Nat.pow_le_pow_right (by decide) (by omega))
            _ = n.natAbs * 10 ^ k * 10 ^ s := by rw [Nat.pow_add, Nat.mul_assoc]
        have hbig := hprevious (by omega)
        have hsmall := natAbs_dropDigits_le hfits
        rw [Nat.add_sub_cancel] at hbig
        omega
    · obtain ⟨j, rfl⟩ : ∃ j, S = j + k + s := ⟨S - k - s, by omega⟩
      refine ⟨n * 10 ^ j, ?_⟩
      have hpow : (10 : Int) ^ s ≠ 0 := (Int.pow_pos (by decide)).ne'
      refine Int.eq_of_mul_eq_mul_right hpow ?_
      rw [h]
      ring
  obtain ⟨m, rfl⟩ := hzeros
  rw [dropDigits_mul] at hcoeff
  obtain ⟨j, rfl⟩ : ∃ j, S = j + k := ⟨S - k, by omega⟩
  rw [toRat, hcoeff, hscale, Nat.add_sub_cancel]
  have hj : ((10 ^ j : Nat) : Rat) ≠ 0 := by positivity
  have hjk : ((10 ^ (j + k) : Nat) : Rat) ≠ 0 := by positivity
  rw [div_eq_div_iff hj hjk]
  push_cast
  ring

/-! ## Sums and differences -/

/-- The units of a number on the grid, by its coefficient at any scale. -/
theorem coeffAt_mul_of_toRat {m : Int} (hS : d.scale ≤ S)
    (h : d.toRat = (m : Rat) / ((10 ^ s : Nat) : Rat)) : d.coeffAt S * 10 ^ s = m * 10 ^ S := by
  have hs' : ((10 ^ s : Nat) : Rat) ≠ 0 := by positivity
  have hS' : ((10 ^ S : Nat) : Rat) ≠ 0 := by positivity
  rw [toRat_eq_coeffAt hS, div_eq_div_iff hS' hs'] at h
  exact_mod_cast h

/-- A sum is exact if it has fewer units than the bound. -/
theorem exists_add?_of_units {m m' : Int} (hs : s ≤ maxScale)
    (ha : a.toRat = (m : Rat) / ((10 ^ s : Nat) : Rat))
    (hb : b.toRat = (m' : Rat) / ((10 ^ s : Nat) : Rat)) (hm : (m + m').natAbs < coeffBound) :
    ∃ d, a.add? b = some d ∧ d.toRat = a.toRat + b.toRat := by
  unfold add?
  split
  · next hzero => exact ⟨b, rfl, by rw [toRat_of_isZero hzero, zero_add]⟩
  · split
    · next hzero => exact ⟨a, rfl, by rw [toRat_of_isZero hzero, add_zero]⟩
    · have hle := le_max_left a.scale b.scale
      have hle' := le_max_right a.scale b.scale
      have hunits : (a.coeffAt (max a.scale b.scale) + b.coeffAt (max a.scale b.scale)) * 10 ^ s =
          (m + m') * 10 ^ max a.scale b.scale := by
        rw [add_mul, add_mul, coeffAt_mul_of_toRat hle ha, coeffAt_mul_of_toRat hle' hb]
      obtain ⟨d, hd, hvalue⟩ := exists_fit?_of_units hs hm hunits
      refine ⟨d, hd, ?_⟩
      rw [hvalue, Int.cast_add, add_div, ← toRat_eq_coeffAt hle, ← toRat_eq_coeffAt hle']

/-- **A sum on the grid is exact** if it does not reach the end. -/
theorem exists_add?_of_onGrid (hs : s ≤ maxScale) (ha : OnGrid s a.toRat) (hb : OnGrid s b.toRat)
    (hend : a.toRat + b.toRat < gridEnd s) :
    ∃ d, a.add? b = some d ∧ d.toRat = a.toRat + b.toRat := by
  obtain ⟨m, hm⟩ := ha
  obtain ⟨m', hm'⟩ := hb
  have hpow : (0 : Rat) < ((10 ^ s : Nat) : Rat) := by positivity
  rw [hm, hm', gridEnd, ← add_div, div_lt_div_iff_of_pos_right hpow] at hend
  have hlt : m + m' < coeffBound := by exact_mod_cast hend
  rw [← Int.cast_natCast] at hm hm'
  exact exists_add?_of_units hs hm hm' (by omega)

/-- **A difference on the grid is exact** if it is not negative. -/
theorem exists_sub?_of_onGrid (hs : s ≤ maxScale) (ha : OnGrid s a.toRat) (hb : OnGrid s b.toRat)
    (hend : a.toRat < gridEnd s) (hle : b.toRat ≤ a.toRat) :
    ∃ d, a.sub? b = some d ∧ d.toRat = a.toRat - b.toRat := by
  obtain ⟨m, hm⟩ := ha
  obtain ⟨m', hm'⟩ := hb
  have hpow : (0 : Rat) < ((10 ^ s : Nat) : Rat) := by positivity
  rw [hm, hm', div_le_div_iff_of_pos_right hpow, Nat.cast_le] at hle
  rw [hm, gridEnd, div_lt_div_iff_of_pos_right hpow, Nat.cast_lt] at hend
  have hneg : b.neg.toRat = ((-(m' : Int) : Int) : Rat) / ((10 ^ s : Nat) : Rat) := by
    rw [toRat_neg, hm', Int.cast_neg, neg_div, Int.cast_natCast]
  rw [← Int.cast_natCast] at hm
  obtain ⟨d, hd, hvalue⟩ := exists_add?_of_units hs hm hneg (by omega)
  exact ⟨d, hd, by rw [hvalue, toRat_neg, sub_eq_add_neg]⟩

/-! ## Balances -/

/-- **A balance that covers what is drawn from it**, a number of `q` on the
whole. -/
structure Covers (s : Nat) (a : Decimal) (q : Rat) : Prop where
  onGrid : OnGrid s a.toRat
  lt_end : a.toRat < gridEnd s
  le : q ≤ a.toRat

/-- **A balance that takes up what is added to it**, a number of `q` on the
whole. -/
structure TakesUp (s : Nat) (a : Decimal) (q : Rat) : Prop where
  onGrid : OnGrid s a.toRat
  lt_end : a.toRat + q < gridEnd s

/-- A part of what is covered can be drawn, and is drawn exactly. -/
theorem Covers.exists_sub? (h : Covers s a (b.toRat + q)) (hs : s ≤ maxScale)
    (hb : OnGrid s b.toRat) (hq : 0 ≤ q) :
    ∃ d, a.sub? b = some d ∧ d.toRat = a.toRat - b.toRat ∧ ¬ d < zero := by
  have hle : b.toRat ≤ a.toRat := (le_add_of_nonneg_right hq).trans h.le
  obtain ⟨d, hd, hvalue⟩ := exists_sub?_of_onGrid hs h.onGrid hb h.lt_end hle
  refine ⟨d, hd, hvalue, ?_⟩
  rw [not_lt_zero_iff, hvalue]
  exact sub_nonneg.mpr hle

/-- What is left after a part was drawn covers the rest. -/
theorem Covers.rest (h : Covers s a (q + q')) (hd : d.toRat = a.toRat - q) (hq : OnGrid s q)
    (hq' : 0 ≤ q') : Covers s d q' := by
  have hle : q ≤ a.toRat := (le_add_of_nonneg_right hq').trans h.le
  constructor
  · rw [hd]
    exact h.onGrid.sub hq hle
  · rw [hd]
    exact (sub_le_self _ hq.nonneg).trans_lt h.lt_end
  · rw [hd, le_sub_iff_add_le']
    exact h.le

/-- A part of what is taken up can be added, and is added exactly. -/
theorem TakesUp.exists_add? (h : TakesUp s a (b.toRat + q)) (hs : s ≤ maxScale)
    (hb : OnGrid s b.toRat) (hq : 0 ≤ q) :
    ∃ d, a.add? b = some d ∧ d.toRat = a.toRat + b.toRat := by
  refine exists_add?_of_onGrid hs h.onGrid hb (lt_of_le_of_lt ?_ h.lt_end)
  rw [← add_assoc]
  exact le_add_of_nonneg_right hq

/-- After a part was added there is space for the rest. -/
theorem TakesUp.rest (h : TakesUp s a (q + q')) (hd : d.toRat = a.toRat + q) (hq : OnGrid s q) :
    TakesUp s d q' := by
  constructor
  · rw [hd]
    exact h.onGrid.add hq
  · rw [hd, add_assoc]
    exact h.lt_end

end Decimal

end ChainLedger
