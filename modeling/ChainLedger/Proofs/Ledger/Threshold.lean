import ChainLedger.Proofs.Decimal.Faithful
import ChainLedger.Proofs.Decimal.Part
import ChainLedger.Proofs.Decimal.Percent
import ChainLedger.Proofs.Ledger.Stage

/-!
# When enough is sold

Enough is sold if the sold part of the supply, taken a hundred times, is not
below the supply times the percentage (`EnoughSold`). The question is decided
on rounded numbers, two products or a quotient, and the answer is the exact
one if the numbers that are compared are decimals. A share that was reached is
never denied if its own side of the comparison is a decimal; and whatever is
rounded, the answer is wrong only for supplies within a hair of the threshold
(`thresholdMet_decides`). Beside the threshold it may be wrong: a supply of
many digits that misses it by less than rounding sees passes
(`thresholdMet_of_missed`).
-/

namespace ChainLedger

-- A power is the one of the core library, whatever other structure is in scope.
attribute [local instance (2000)] instPowNat

open Decimal

variable {total available sold share soldPercent needed percent : Decimal} {enough : Bool}

/-- **Enough is sold**, by the exact numbers. -/
def EnoughSold (total available percent : Decimal) : Prop :=
  total.toRat * percent.toRat ≤ (total.toRat - available.toRat) * 100

/-- How near to the threshold a supply may be mistaken. -/
def thresholdMargin (total percent : Decimal) : Rat :=
  total.toRat * (100 + |percent.toRat|) / 2 ^ (90 : Nat) + 1 / 10 ^ (28 : Nat)

/-- **The answer to whether enough is sold**, and how far it can be trusted. -/
structure Decides (total available percent : Decimal) (enough : Bool) : Prop where
  /-- It is exact, if the sold part and both sides of the comparison are decimals. -/
  exact : Representable (total.toRat - available.toRat) →
    Representable ((total.toRat - available.toRat) * 100) →
    Representable (total.toRat * percent.toRat) →
    (enough = true ↔ EnoughSold total available percent)
  /-- What is reached is not denied, if the sold part and its hundredfold are decimals. -/
  reached : Representable (total.toRat - available.toRat) →
    Representable ((total.toRat - available.toRat) * 100) →
    EnoughSold total available percent → enough = true
  /-- It is exact at any rate off the threshold. -/
  near : (enough = true ↔ EnoughSold total available percent) ∨
    |(total.toRat - available.toRat) * 100 - total.toRat * percent.toRat| ≤
      thresholdMargin total percent

/-! ## The two ways to ask -/

/-- A product that was taken to exist is the partial one. -/
theorem Decimal.mul_eq_ok {a b d : Decimal} : a.mul b = .ok d ↔ a.mul? b = some d := by
  unfold Decimal.mul
  cases a.mul? b <;> simp

/-- **Two products are compared**, or a quotient if one of them is out of
range. -/
theorem thresholdMet_cases (h : thresholdMet total available percent = .ok enough) :
    ∃ sold, total.sub? available = some sold ∧
      ((∃ soldPercent needed, sold.mul? .hundred = some soldPercent ∧
          total.mul? percent = some needed ∧ enough = decide (needed ≤ soldPercent)) ∨
        (∀ soldPercent needed, sold.mul? .hundred = some soldPercent →
            total.mul? percent ≠ some needed) ∧
          ∃ share soldPercent, sold.div total = .ok share ∧
            share.mul? .hundred = some soldPercent ∧ enough = decide (percent ≤ soldPercent)) := by
  rw [thresholdMet, bind_eq_ok] at h
  obtain ⟨sold, hsold, h⟩ := h
  refine ⟨sold, sub_eq_ok.mp hsold, ?_⟩
  split at h
  · next soldPercent needed hsoldPercent hneeded =>
    cases h
    exact .inl ⟨_, _, hsoldPercent, hneeded, rfl⟩
  · next hrange =>
    rw [bind_eq_ok] at h
    obtain ⟨share, hshare, h⟩ := h
    rw [bind_eq_ok] at h
    obtain ⟨soldPercent, hpercent, h⟩ := h
    cases h
    exact .inr ⟨fun _ _ hproduct hneeded => hrange _ _ hproduct hneeded, share, soldPercent, hshare,
      mul_eq_ok.mp hpercent, rfl⟩

/-- **A comparison of approximate numbers** is the exact one, if the numbers
are further apart than what they are off by. -/
theorem le_iff_of_apart {x y x' y' m : Rat} (hoff : |x' - x| + |y' - y| ≤ m)
    (hapart : m < |x - y|) : y' ≤ x' ↔ y ≤ x := by
  obtain ⟨hxlow, hxhigh⟩ := abs_le.mp (le_refl |x' - x|)
  obtain ⟨hylow, hyhigh⟩ := abs_le.mp (le_refl |y' - y|)
  rcases le_total y x with hle | hle
  · rw [abs_of_nonneg (sub_nonneg.mpr hle)] at hapart
    exact iff_of_true (by linarith) hle
  · rw [abs_of_nonpos (sub_nonpos.mpr hle)] at hapart
    have hxpos := abs_nonneg (x' - x)
    have hypos := abs_nonneg (y' - y)
    exact iff_of_false (by linarith) (by linarith)

/-- **The sold part of a supply within its bounds**, rounded. -/
structure SoldPart (total available sold : Decimal) : Prop where
  rounds : Rounds (total.toRat - available.toRat) sold
  nonneg : 0 ≤ sold.toRat
  le_total : sold.toRat ≤ total.toRat
  exact_nonneg : 0 ≤ total.toRat - available.toRat
  exact_le : total.toRat - available.toRat ≤ total.toRat

theorem soldPart_of_sub? (h : 0 ≤ available.toRat) (hle : available.toRat ≤ total.toRat)
    (hsold : total.sub? available = some sold) : SoldPart total available sold where
  rounds := rounds_sub? hsold
  nonneg := zero_le_sub? hle hsold
  le_total := toRat_sub?_le h hsold
  exact_nonneg := sub_nonneg.mpr hle
  exact_le := sub_le_self _ h

namespace SoldPart

/-- What is rounded of the sold part is a small part of the supply. -/
theorem abs_sold_sub_le (h : SoldPart total available sold) :
    |sold.toRat - (total.toRat - available.toRat)| ≤ total.toRat / 2 ^ (93 : Nat) := by
  have hrounds := h.rounds.abs_sub_le
  rw [abs_of_nonneg h.exact_nonneg] at hrounds
  refine hrounds.trans ?_
  gcongr
  exact h.exact_le

/-- So it is of a hundred times as much. -/
theorem abs_sold_mul_sub_le (h : SoldPart total available sold) :
    |sold.toRat * 100 - (total.toRat - available.toRat) * 100| ≤
      total.toRat * 100 / 2 ^ (93 : Nat) := by
  rw [← sub_mul, abs_mul, abs_of_pos (by norm_num : (0 : Rat) < 100), mul_div_right_comm]
  have hsold := h.abs_sold_sub_le
  gcongr

/-! ## By products -/

/-- The hundredfold of the sold part, if it and the sold part are decimals. -/
theorem toRat_soldPercent (h : SoldPart total available sold)
    (hpercent : sold.mul? .hundred = some soldPercent)
    (hexact : Representable (total.toRat - available.toRat))
    (hexact' : Representable ((total.toRat - available.toRat) * 100)) :
    soldPercent.toRat = (total.toRat - available.toRat) * 100 := by
  have hsold := h.rounds.eq_of_representable hexact
  rw [← hsold, ← toRat_hundred] at hexact' ⊢
  exact toRat_mul?_of_representable hpercent hexact'

/-- The hundredfold of the sold part is near the exact one. -/
theorem abs_soldPercent_sub_le (h : SoldPart total available sold)
    (hpercent : sold.mul? .hundred = some soldPercent) :
    |soldPercent.toRat - (total.toRat - available.toRat) * 100| ≤
      total.toRat * 200 / 2 ^ (93 : Nat) := by
  have hrounds := (rounds_mul? (by exact sold.scale_le) hpercent).abs_sub_le
  rw [toRat_hundred, abs_of_nonneg (mul_nonneg h.nonneg (by norm_num))] at hrounds
  have hle : sold.toRat * 100 / 2 ^ (93 : Nat) ≤ total.toRat * 100 / 2 ^ (93 : Nat) := by
    have hle := h.le_total
    gcongr
  calc |soldPercent.toRat - (total.toRat - available.toRat) * 100|
      ≤ |soldPercent.toRat - sold.toRat * 100| +
          |sold.toRat * 100 - (total.toRat - available.toRat) * 100| := abs_sub_le _ _ _
    _ ≤ total.toRat * 100 / 2 ^ (93 : Nat) + total.toRat * 100 / 2 ^ (93 : Nat) :=
      add_le_add (hrounds.trans hle) h.abs_sold_mul_sub_le
    _ = total.toRat * 200 / 2 ^ (93 : Nat) := by ring

/-- **Two products decide.** -/
theorem decides_of_products (h : SoldPart total available sold)
    (hpercent : sold.mul? .hundred = some soldPercent)
    (hneeded : total.mul? percent = some needed) :
    Decides total available percent (decide (needed ≤ soldPercent)) where
  exact hexact hexact' hexact'' := by
    rw [decide_eq_true_iff, le_iff, toRat_mul?_of_representable hneeded hexact'',
      h.toRat_soldPercent hpercent hexact hexact']
    rfl
  reached hexact hexact' henough := by
    rw [decide_eq_true_iff, le_iff]
    refine le_toRat_of_mul? hneeded ?_
    rw [h.toRat_soldPercent hpercent hexact hexact']
    exact henough
  near := by
    rw [decide_eq_true_iff, le_iff, or_iff_not_imp_right, not_le]
    refine le_iff_of_apart ?_
    have htotal : 0 ≤ total.toRat := h.nonneg.trans h.le_total
    have hsold := h.abs_soldPercent_sub_le hpercent
    have hproduct := abs_toRat_mul?_sub_le hneeded
    rw [abs_mul, abs_of_nonneg htotal] at hproduct
    have hpos : 0 ≤ total.toRat * |percent.toRat| := mul_nonneg htotal (abs_nonneg _)
    have hunit : (1 : Rat) / (2 * 10 ^ (28 : Nat)) ≤ 1 / 10 ^ (28 : Nat) := by norm_num
    rw [thresholdMargin]
    have hmargin : total.toRat * 200 / 2 ^ (93 : Nat) +
        total.toRat * |percent.toRat| / 2 ^ (93 : Nat) ≤
          total.toRat * (100 + |percent.toRat|) / 2 ^ (90 : Nat) := by
      rw [← add_div, div_le_div_iff₀ (by positivity) (by positivity)]
      linarith
    linarith

/-! ## By a quotient -/

/-- The quotient of the sold part is near the exact one. -/
theorem abs_share_sub_le (h : SoldPart total available sold) (hpos : 0 < total.toRat)
    (hshare : sold.div total = .ok share) :
    0 ≤ share.toRat ∧ |share.toRat - sold.toRat / total.toRat| ≤ 1 / 2 ^ (93 : Nat) := by
  obtain ⟨hnonneg, hdivided⟩ := abs_toRat_div_sub_le h.nonneg h.le_total hpos hshare
  rw [← le_div_iff₀ (by positivity)] at hdivided
  exact ⟨hnonneg, hdivided.trans (by norm_num)⟩

/-- So is what the quotient makes of the supply. -/
theorem abs_hundredfold_sub_le (h : SoldPart total available sold) (hpos : 0 < total.toRat)
    (hshare : sold.div total = .ok share) :
    |share.toRat * total.toRat * 100 - sold.toRat * 100| ≤ total.toRat * 100 / 2 ^ (93 : Nat) := by
  have hquotient : sold.toRat / total.toRat * total.toRat = sold.toRat :=
    div_mul_cancel₀ _ hpos.ne'
  have hscaled : share.toRat * total.toRat * 100 - sold.toRat * 100 =
      (share.toRat - sold.toRat / total.toRat) * (total.toRat * 100) := by
    rw [sub_mul, ← mul_assoc, ← mul_assoc, hquotient]
  calc |share.toRat * total.toRat * 100 - sold.toRat * 100|
      = |share.toRat - sold.toRat / total.toRat| * (total.toRat * 100) := by
        rw [hscaled, abs_mul, abs_of_pos (mul_pos hpos (by norm_num))]
    _ ≤ 1 / 2 ^ (93 : Nat) * (total.toRat * 100) := by
        gcongr
        exact (h.abs_share_sub_le hpos hshare).2
    _ = total.toRat * 100 / 2 ^ (93 : Nat) := by ring

/-- And its percentage, which is rounded once more. -/
theorem abs_percent_sub_le (h : SoldPart total available sold) (hpos : 0 < total.toRat)
    (hshare : sold.div total = .ok share) (hpercent : share.mul? .hundred = some soldPercent) :
    |soldPercent.toRat * total.toRat - share.toRat * total.toRat * 100| ≤
      total.toRat * 200 / 2 ^ (93 : Nat) := by
  obtain ⟨hnonneg, hnear⟩ := h.abs_share_sub_le hpos hshare
  have hrounds := (rounds_mul? (by exact share.scale_le) hpercent).abs_sub_le
  rw [toRat_hundred, abs_of_nonneg (mul_nonneg hnonneg (by norm_num))] at hrounds
  have htwo : share.toRat ≤ 2 := by
    have hone : sold.toRat / total.toRat ≤ 1 := (div_le_one hpos).mpr h.le_total
    have hhigh := (abs_le.mp hnear).2
    have hsmall : (1 : Rat) / 2 ^ (93 : Nat) ≤ 1 := by norm_num
    linarith
  calc |soldPercent.toRat * total.toRat - share.toRat * total.toRat * 100|
      = |(soldPercent.toRat - share.toRat * 100) * total.toRat| := by ring_nf
    _ = |soldPercent.toRat - share.toRat * 100| * total.toRat := by
        rw [abs_mul, abs_of_pos hpos]
    _ ≤ share.toRat * 100 / 2 ^ (93 : Nat) * total.toRat := by gcongr
    _ ≤ 2 * 100 / 2 ^ (93 : Nat) * total.toRat := by gcongr
    _ = total.toRat * 200 / 2 ^ (93 : Nat) := by ring

/-- **The percentage of the sold part** is near the exact one: the quotient, its
hundredfold and the sold part are rounded, each a little. -/
theorem abs_quotient_sub_le (h : SoldPart total available sold) (hpos : 0 < total.toRat)
    (hshare : sold.div total = .ok share) (hpercent : share.mul? .hundred = some soldPercent) :
    |soldPercent.toRat * total.toRat - (total.toRat - available.toRat) * 100| ≤
      total.toRat * 100 / 2 ^ (90 : Nat) := by
  obtain ⟨hfirst, hfirst'⟩ := abs_le.mp (h.abs_hundredfold_sub_le hpos hshare)
  obtain ⟨hsecond, hsecond'⟩ := abs_le.mp (h.abs_percent_sub_le hpos hshare hpercent)
  obtain ⟨hthird, hthird'⟩ := abs_le.mp h.abs_sold_mul_sub_le
  have hsum : total.toRat * 100 / 2 ^ (93 : Nat) + total.toRat * 200 / 2 ^ (93 : Nat) +
      total.toRat * 100 / 2 ^ (93 : Nat) ≤ total.toRat * 100 / 2 ^ (90 : Nat) := by
    rw [← add_div, ← add_div, div_le_div_iff₀ (by positivity) (by positivity)]
    linarith
  exact abs_le.mpr ⟨by linarith, by linarith⟩

/-- **A quotient decides**, where the products are out of range. -/
theorem decides_of_quotient (h : SoldPart total available sold)
    (hrange : ∀ soldPercent needed, sold.mul? .hundred = some soldPercent →
      total.mul? percent ≠ some needed)
    (hshare : sold.div total = .ok share) (hpercent : share.mul? .hundred = some soldPercent) :
    Decides total available percent (decide (percent ≤ soldPercent)) := by
  have hpos : 0 < total.toRat :=
    lt_of_le_of_ne (h.nonneg.trans h.le_total) (ne_zero_of_products h.nonneg h.le_total hrange).symm
  -- The hundredfold of the sold part is in range as soon as it is a decimal.
  have hproduct (hexact : Representable (total.toRat - available.toRat))
      (hexact' : Representable ((total.toRat - available.toRat) * 100)) :
      ∃ d, sold.mul? .hundred = some d := by
    rw [← h.rounds.eq_of_representable hexact, ← toRat_hundred] at hexact'
    exact exists_mul? hexact'.abs_le
  refine ⟨fun hexact hexact' hexact'' => ?_, fun hexact hexact' henough => ?_, ?_⟩
  · obtain ⟨d, hd⟩ := hproduct hexact hexact'
    obtain ⟨needed, hneeded⟩ := exists_mul? hexact''.abs_le
    exact absurd hneeded (hrange d needed hd)
  · obtain ⟨d, hd⟩ := hproduct hexact hexact'
    have hlow : ¬ |total.toRat * percent.toRat| ≤ (maxCoeff : Rat) := fun hle => by
      obtain ⟨needed, hneeded⟩ := exists_mul? hle
      exact hrange d needed hd hneeded
    -- What is needed is not above a decimal, so it is out of range below zero.
    have hnegative : percent.toRat < 0 := by
      by_contra hnonneg
      have hneeded := mul_nonneg hpos.le (not_lt.mp hnonneg)
      rw [abs_of_nonneg hneeded] at hlow
      exact hlow (henough.trans ((le_abs_self _).trans hexact'.abs_le))
    have hzero : zero.toRat ≤ soldPercent.toRat := by
      refine toRat_le_of_mul? hpercent ?_
      rw [toRat_zero, toRat_hundred]
      exact mul_nonneg (abs_toRat_div_sub_le h.nonneg h.le_total hpos hshare).1 (by norm_num)
    rw [toRat_zero] at hzero
    rw [decide_eq_true_iff, le_iff]
    exact hnegative.le.trans hzero
  · rw [decide_eq_true_iff, le_iff, or_iff_not_imp_right, not_le]
    intro hapart
    have hquotient := h.abs_quotient_sub_le hpos hshare hpercent
    have hmargin : total.toRat * 100 / 2 ^ (90 : Nat) ≤ thresholdMargin total percent := by
      have hnonneg := mul_nonneg hpos.le (abs_nonneg percent.toRat)
      rw [thresholdMargin, mul_add, add_div, add_assoc]
      exact le_add_of_nonneg_right (by positivity)
    rw [← mul_le_mul_iff_of_pos_right hpos, mul_comm percent.toRat]
    refine le_iff_of_apart ?_ hapart
    rw [sub_self, abs_zero, add_zero]
    exact hquotient.trans hmargin

end SoldPart

/-! ## The answer -/

/-- Every answer about a supply within its bounds decides, whichever way it was
asked for. -/
theorem decides_of_thresholdMet (h : 0 ≤ available.toRat) (hle : available.toRat ≤ total.toRat)
    (henough : thresholdMet total available percent = .ok enough) :
    Decides total available percent enough := by
  obtain ⟨sold, hsold, hproducts | ⟨hrange, hquotient⟩⟩ := thresholdMet_cases henough
  · obtain ⟨soldPercent, needed, hpercent, hneeded, rfl⟩ := hproducts
    exact (soldPart_of_sub? h hle hsold).decides_of_products hpercent hneeded
  · obtain ⟨share, soldPercent, hshare, hpercent, rfl⟩ := hquotient
    exact (soldPart_of_sub? h hle hsold).decides_of_quotient hrange hshare hpercent

/-- **Whether enough is sold is decided** of every supply within its bounds,
and rightly but for a hair beside the threshold. -/
theorem thresholdMet_decides (h : 0 ≤ available.toRat) (hle : available.toRat ≤ total.toRat)
    (percent : Decimal) :
    ∃ enough, thresholdMet total available percent = .ok enough ∧
      Decides total available percent enough := by
  obtain ⟨enough, henough⟩ := exists_thresholdMet h hle percent
  exact ⟨enough, henough, decides_of_thresholdMet h hle henough⟩

/-- The greatest decimal. -/
def greatest : Decimal := (ofParts? maxCoeff 0).getD .zero

/-- Fifty percent. -/
def half : Decimal := (ofParts? 50 0).getD .zero

theorem thresholdMet_decides_soldOut :
    0 ≤ zero.toRat ∧ zero.toRat ≤ greatest.toRat ∧
      ∃ enough, thresholdMet greatest .zero half = .ok enough ∧
        Decides greatest .zero half enough := by
  have hnonneg : 0 ≤ zero.toRat := toRat_zero.ge
  have hle : zero.toRat ≤ greatest.toRat := le_iff.mp (by decide)
  exact ⟨hnonneg, hle, thresholdMet_decides hnonneg hle half⟩

/-! ## Beside the threshold -/

/-- Fifty thousand millions, and one unit of the eighteenth fraction digit. -/
def manyDigits : Decimal := (ofParts? 50000000000000000000000000001 18).getD .zero

/-- Half of them, and that unit. -/
def manyLeft : Decimal := (ofParts? 25000000000000000000000000001 18).getD .zero

/-- Half of the greatest decimal, rounded up. -/
def greatestLeft : Decimal := (ofParts? (2 ^ (95 : Nat)) 0).getD .zero

/-- **A supply that misses the threshold by a crumb passes**, by two products
and by a quotient alike. -/
theorem thresholdMet_of_missed :
    (thresholdMet manyDigits manyLeft half = .ok true ∧ ¬ EnoughSold manyDigits manyLeft half) ∧
      thresholdMet greatest greatestLeft half = .ok true ∧
        ¬ EnoughSold greatest greatestLeft half := by
  refine ⟨⟨by rfl, ?_⟩, by rfl, ?_⟩
  · unfold EnoughSold
    decide +kernel
  · unfold EnoughSold
    decide +kernel

/-! ## Few digits -/

/-- **A supply of few digits is decided exactly**: on a grid that its
hundredfold does not leave, and with room for the digits of the percentage. -/
theorem exists_enough_iff {s : Nat} (h : 0 ≤ available.toRat)
    (hle : available.toRat ≤ total.toRat) (hs : s ≤ maxScale) (htotal : total.scale ≤ s)
    (havailable : available.scale ≤ s) (hend : total.toRat * 100 < gridEnd s)
    (hdigits : total.digits * percent.digits < coeffBound)
    (hscale : total.scale + percent.scale ≤ maxScale) :
    ∃ enough, thresholdMet total available percent = .ok enough ∧
      (enough = true ↔ EnoughSold total available percent) := by
  obtain ⟨enough, henough⟩ := exists_thresholdMet h hle percent
  have hsold : OnGrid s (total.toRat - available.toRat) :=
    (onGrid_of_scale_le (h.trans hle) htotal).sub (onGrid_of_scale_le h havailable) hle
  have hhundredfold : OnGrid s ((total.toRat - available.toRat) * 100) := by
    obtain ⟨n, hn⟩ := hsold
    exact ⟨n * 100, by rw [hn, Nat.cast_mul, Nat.cast_ofNat, div_mul_eq_mul_div]⟩
  refine ⟨enough, henough, (decides_of_thresholdMet h hle henough).exact ?_ ?_ ?_⟩
  · exact .of_onGrid hs hsold (by linarith [hsold.nonneg])
  · exact .of_onGrid hs hhundredfold (by linarith)
  · obtain ⟨needed, -, hneeded, -⟩ := exists_mul?_of_digits hdigits hscale
    exact ⟨needed, hneeded⟩

end ChainLedger
