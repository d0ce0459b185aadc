import ChainLedger.Ledger.Stage
import ChainLedger.Proofs.Decimal.Quotient
import ChainLedger.Proofs.Ledger.Lookup

/-!
# Offerings always have a stage

Of a supply that is within its bounds, the sold part is a decimal between
zero and the whole supply. Whether enough is sold is asked of two products,
and of a quotient where one of the products is out of range
(`exists_thresholdMet`). A product with zero is never out of range, so there
is something to divide by then, and the quotient is at most one, up to its
rounding, so that its percentage is in range again.
-/

namespace ChainLedger

open Decimal

variable {total available sold : Decimal}

/-- The sold part of a supply is between zero and the whole. -/
theorem exists_sold (h : 0 ≤ available.toRat) (hle : available.toRat ≤ total.toRat) :
    ∃ sold, total.sub available = .ok sold ∧ 0 ≤ sold.toRat ∧ sold.toRat ≤ total.toRat := by
  obtain ⟨sold, hsold⟩ := exists_sub? (h.trans hle) h
  exact ⟨sold, sub_eq_ok.mpr hsold, zero_le_sub? hle hsold, toRat_sub?_le h hsold⟩

/-- **The part that is sold can be told in percent**, if there is anything to
sell: the quotient is not far above one. -/
theorem exists_share (hsold : 0 ≤ sold.toRat) (hle : sold.toRat ≤ total.toRat)
    (htotal : total.toRat ≠ 0) :
    ∃ share soldPercent, sold.div total = .ok share ∧ share.mul .hundred = .ok soldPercent := by
  have hpos : 0 < total.toRat := lt_of_le_of_ne (hsold.trans hle) htotal.symm
  have hone : |sold.toRat| / |total.toRat| ≤ 1 := by
    rw [abs_of_nonneg hsold, abs_of_pos hpos]
    exact (div_le_one hpos).mpr hle
  have hgreatest : (300 : Rat) ≤ (maxCoeff : Rat) := by exact_mod_cast (by decide : 300 ≤ maxCoeff)
  have hrange : |sold.toRat| / |total.toRat| < (maxCoeff : Rat) :=
    lt_of_le_of_lt hone (lt_of_lt_of_le (by norm_num) hgreatest)
  obtain ⟨share, hshare, hsmall⟩ := exists_div htotal hrange
  have hthree : |share.toRat| ≤ 1 + 2 := hsmall.trans (add_le_add_left hone 2)
  have hproduct : |share.toRat * hundred.toRat| ≤ (maxCoeff : Rat) := by
    rw [abs_mul, toRat_hundred, abs_of_pos (by norm_num : (0 : Rat) < 100)]
    linarith only [hthree, hgreatest]
  obtain ⟨soldPercent, hpercent⟩ := exists_mul? hproduct
  exact ⟨share, soldPercent, hshare, by rw [Decimal.mul, hpercent]⟩

/-- **There is something to sell** where one of the two products is out of
range: were the supply zero, both would be. -/
theorem ne_zero_of_products {percent : Decimal} (hsold : 0 ≤ sold.toRat)
    (hle : sold.toRat ≤ total.toRat)
    (hrange : ∀ soldPercent needed, sold.mul? .hundred = some soldPercent →
      total.mul? percent ≠ some needed) : total.toRat ≠ 0 := by
  intro hzero
  have hsoldzero : sold.toRat = 0 := le_antisymm (hzero ▸ hle) hsold
  exact hrange _ _ (mul?_of_isZero (isZero_of_toRat hsoldzero))
    (mul?_of_isZero (isZero_of_toRat hzero))

/-- **Whether enough is sold can always be told** of a supply within its
bounds. -/
theorem exists_thresholdMet (h : 0 ≤ available.toRat) (hle : available.toRat ≤ total.toRat)
    (percent : Decimal) : ∃ enough, thresholdMet total available percent = .ok enough := by
  obtain ⟨sold, hsold, hnonneg, hsoldle⟩ := exists_sold h hle
  rw [thresholdMet, hsold, ok_bind]
  split
  · exact ⟨_, rfl⟩
  · next hrange =>
    have htotal : total.toRat ≠ 0 := ne_zero_of_products hnonneg hsoldle hrange
    obtain ⟨share, soldPercent, hshare, hpercent⟩ := exists_share hnonneg hsoldle htotal
    rw [hshare, ok_bind, hpercent]
    exact ⟨_, rfl⟩

/-- **An offering has a stage at every instant**, if its supply is within its
bounds. Whether enough of it is sold does not depend on the instant. -/
theorem Offering.exists_enough {o : Offering} (h : 0 ≤ o.availableSupply.toRat)
    (hle : o.availableSupply.toRat ≤ o.totalSupply.toRat) :
    ∃ enough, ∀ now, o.stage now = .ok (o.schedule.stage now o.vaultType enough) := by
  obtain ⟨enough, henough⟩ := exists_thresholdMet h hle o.unlockThreshold
  refine ⟨enough, fun now => ?_⟩
  rw [stage, henough]
  rfl

end ChainLedger
