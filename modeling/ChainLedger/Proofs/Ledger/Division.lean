import ChainLedger.Proofs.Decimal.Faithful
import ChainLedger.Proofs.Decimal.Percent
import ChainLedger.Proofs.Ledger.Refusal

/-!
# How revenue is divided

The owner gets what the platform and the partner leave, by two differences
that may round. So no share is negative and the three of them make up the
amount, but for less than `2 ^ -92` of it, and exactly if both differences are
decimals (`RevenueSplit.divides`). Amounts and rates of few digits are divided
exactly (`RevenueSplit.exists_exact`); an amount that nearly fills the digits of a
decimal may not be (`RevenueSplit.excess_of_large`).
-/

namespace ChainLedger.RevenueSplit

open Decimal

variable {amount platformRate bdRate rate : Decimal} {hasBd : Bool} {split : RevenueSplit} {s : Nat}

/-- The sum of the shares. -/
def sum (split : RevenueSplit) : Rat := split.platform.toRat + split.bd.toRat + split.owner.toRat

/-- **A division of an amount** among the platform, the partner and the owner. -/
structure Divides (amount : Decimal) (split : RevenueSplit) : Prop where
  platform_nonneg : 0 ≤ split.platform.toRat
  bd_nonneg : 0 ≤ split.bd.toRat
  owner_nonneg : 0 ≤ split.owner.toRat
  /-- Hardly anything is lost, or paid in excess. -/
  near : |split.sum - amount.toRat| * 2 ^ (92 : Nat) ≤ amount.toRat
  /-- Nothing is, if what the platform leaves is a decimal, and what the partner
  leaves of that. -/
  whole : Representable (amount.toRat - split.platform.toRat) →
    Representable (amount.toRat - split.platform.toRat - split.bd.toRat) →
    split.sum = amount.toRat

/-- The shares of a division. -/
theorem of_eq_ok (h : of amount platformRate bdRate hasBd = .ok split) :
    ∃ platform bd rest, share amount platformRate = .ok platform ∧ share amount bdRate = .ok bd ∧
      taken amount platform bd hasBd = .ok (split.platform, split.bd) ∧
      amount.sub? split.platform = some rest ∧ rest.sub? split.bd = some split.owner ∧
      0 ≤ split.platform.toRat ∧ 0 ≤ split.bd.toRat ∧ 0 ≤ split.owner.toRat := by
  simp only [of, bind_eq_ok, orOverflow_eq_ok, require_eq_ok, pure_eq_ok, Prod.exists,
    Option.bind_eq_some_iff] at h
  obtain ⟨platform, hplatform, bd, hbd, taken, takenBd, htaken, owner, ⟨rest, hrest, howner⟩, -,
    hsign, rfl⟩ := h
  simp only [not_or, not_lt_zero_iff] at hsign
  exact ⟨platform, bd, rest, hplatform, hbd, htaken, hrest, howner, hsign⟩

/-- **Revenue is divided without a loss**, but for what two differences round. -/
theorem divides (h : of amount platformRate bdRate hasBd = .ok split) : split.Divides amount := by
  obtain ⟨_, _, rest, -, -, -, hrest, howner, hplatform, hbd, hnonneg⟩ := of_eq_ok h
  have hrounds := rounds_sub? hrest
  have hrounds' := rounds_sub? howner
  -- Every share is covered by what it is taken from.
  have hcovers' : split.bd.toRat ≤ rest.toRat := le_of_sub? howner (not_lt_zero_iff.mpr hnonneg)
  have hcovers : split.platform.toRat ≤ amount.toRat :=
    le_of_sub? hrest (not_lt_zero_iff.mpr (hbd.trans hcovers'))
  have hle : rest.toRat ≤ amount.toRat := toRat_sub?_le hplatform hrest
  refine ⟨hplatform, hbd, hnonneg, ?_, fun hexact hexact' => ?_⟩
  · have hnear := hrounds.near
    have hnear' := hrounds'.near
    rw [abs_of_nonneg (sub_nonneg.mpr hcovers)] at hnear
    rw [abs_of_nonneg (sub_nonneg.mpr hcovers')] at hnear'
    have htriangle : |split.sum - amount.toRat| ≤
        |rest.toRat - (amount.toRat - split.platform.toRat)| +
          |split.owner.toRat - (rest.toRat - split.bd.toRat)| := by
      refine le_trans (le_of_eq ?_) (abs_add_le _ _)
      congr 1
      rw [sum]
      ring
    linarith
  · have heq := hrounds.eq_of_representable hexact
    rw [← heq] at hexact'
    have heq' := hrounds'.eq_of_representable hexact'
    rw [sum]
    linarith

/-- A tenth. -/
def tenth : Decimal := ⟨false, 1, 1, by decide, by decide⟩

/-- Two and a half. -/
def twoAndHalf : Decimal := ⟨false, 25, 1, by decide, by decide⟩

/-- A tenth divided at that rate. -/
def tenthSplit : RevenueSplit where
  platform := ⟨false, 25, 4, by decide, by decide⟩
  bd := .zero
  owner := ⟨false, 975, 4, by decide, by decide⟩

theorem divides_tenth :
    of tenth twoAndHalf .zero false = .ok tenthSplit ∧ tenthSplit.Divides tenth := by
  have hsplit : of tenth twoAndHalf .zero false = .ok tenthSplit := by rfl
  exact ⟨hsplit, divides hsplit⟩

/-- A hundred millions, and one unit of the eighteenth fraction digit. -/
def large : Decimal := ⟨false, 100000000000000000000000001, 18, by decide, by decide⟩

/-- What it is divided into. -/
def largeSplit : RevenueSplit where
  platform := ⟨false, 2500000000000000000000000025, 21, by decide, by decide⟩
  bd := .zero
  owner := ⟨false, 9750000000000000000000000098, 20, by decide, by decide⟩

/-- **Many digits are not divided exactly**: more is given away than there
was. -/
theorem excess_of_large :
    of large twoAndHalf .zero false = .ok largeSplit ∧ 0 < large.toRat ∧
      large.toRat < largeSplit.sum :=
  ⟨by rfl, by decide +kernel, by decide +kernel⟩

/-! ## Few digits -/

/-- **An amount and rates of few digits**: two more fraction digits than they
have together fit, and the amount does not reach the end of that grid. The
rates make up no more than the whole. -/
structure FewDigits (s : Nat) (amount platformRate bdRate : Decimal) : Prop where
  scale_le : s ≤ maxScale
  platform_scale : amount.scale + platformRate.scale + 2 ≤ s
  bd_scale : amount.scale + bdRate.scale + 2 ≤ s
  amount_nonneg : 0 ≤ amount.toRat
  platform_nonneg : 0 ≤ platformRate.toRat
  bd_nonneg : 0 ≤ bdRate.toRat
  rates_le : platformRate.toRat + bdRate.toRat ≤ 100
  lt_end : amount.toRat < gridEnd s

/-- A share of an amount of few digits is exact, and on the grid. -/
theorem exists_share (hs : s ≤ maxScale) (hscale : amount.scale + rate.scale + 2 ≤ s)
    (hamount : 0 ≤ amount.toRat) (hend : amount.toRat < gridEnd s) (hrate : 0 ≤ rate.toRat)
    (hwhole : rate.toRat ≤ 100) :
    ∃ d, share amount rate = .ok d ∧ d.toRat = amount.toRat * rate.toRat / 100 ∧
      OnGrid s d.toRat := by
  have hamount' := amount.abs_toRat
  have hrate' := rate.abs_toRat
  rw [abs_of_nonneg hamount] at hamount'
  rw [abs_of_nonneg hrate] at hrate'
  have hroom : amount.scale + rate.scale ≤ 26 := by
    have hs' : s ≤ 28 := hs
    omega
  obtain ⟨j, rfl⟩ : ∃ j, s = amount.scale + (rate.scale + 2 + j) :=
    ⟨s - (amount.scale + rate.scale + 2), by omega⟩
  have hdigits : amount.digits * rate.digits < coeffBound := by
    have hbound : amount.digits * 10 ^ (rate.scale + 2 + j) < coeffBound := by
      rw [hamount', gridEnd, div_lt_div_iff₀ (by positivity) (by positivity)] at hend
      have hunits : amount.digits * 10 ^ (amount.scale + (rate.scale + 2 + j)) <
          coeffBound * 10 ^ amount.scale := by exact_mod_cast hend
      rw [Nat.pow_add, Nat.mul_left_comm, Nat.mul_comm coeffBound] at hunits
      exact Nat.lt_of_mul_lt_mul_left hunits
    have hpercent : rate.digits ≤ 10 ^ (rate.scale + 2) := by
      rw [hrate', div_le_iff₀ (by positivity)] at hwhole
      rw [Nat.pow_add, Nat.mul_comm]
      exact_mod_cast hwhole
    calc amount.digits * rate.digits ≤ amount.digits * 10 ^ (rate.scale + 2 + j) :=
          Nat.mul_le_mul_left _ (hpercent.trans (Nat.pow_le_pow_right (by decide) (by omega)))
      _ < coeffBound := hbound
  obtain ⟨product, hproduct, hvalue, hshort⟩ :=
    exists_mul?_of_digits hdigits (hroom.trans (by decide))
  obtain ⟨d, hd, hhundredth⟩ := exists_div_hundred_of_scale (hshort.trans hroom)
  refine ⟨d, ?_, by rw [hhundredth, hvalue], amount.digits * rate.digits * 10 ^ j, ?_⟩
  · simp only [share, bind_eq_ok, orOverflow_eq_ok, trapped_eq_ok]
    exact ⟨product, hproduct, hd⟩
  · have hpow : (10 : Rat) ^ j ≠ 0 := by positivity
    rw [hhundredth, hvalue, hamount', hrate']
    push_cast
    rw [pow_add, pow_add, pow_add]
    field_simp
    norm_num

/-- **Few digits are divided exactly**: the division exists, and its shares make
up the amount. -/
theorem exists_exact (h : FewDigits s amount platformRate bdRate) (hasBd : Bool) :
    ∃ split, of amount platformRate bdRate hasBd = .ok split ∧ split.sum = amount.toRat := by
  have hwhole : platformRate.toRat ≤ 100 := by linarith [h.rates_le, h.bd_nonneg]
  have hwhole' : bdRate.toRat ≤ 100 := by linarith [h.rates_le, h.platform_nonneg]
  obtain ⟨platformShare, hplatform, hplatformValue, hplatformGrid⟩ :=
    exists_share h.scale_le h.platform_scale h.amount_nonneg h.lt_end h.platform_nonneg hwhole
  obtain ⟨bdShare, hbd, hbdValue, hbdGrid⟩ :=
    exists_share h.scale_le h.bd_scale h.amount_nonneg h.lt_end h.bd_nonneg hwhole'
  have hshares : platformShare.toRat + bdShare.toRat ≤ amount.toRat := by
    rw [hplatformValue, hbdValue]
    have := mul_le_mul_of_nonneg_left h.rates_le h.amount_nonneg
    linarith
  -- Without a partner the platform gets both shares.
  obtain ⟨platform, bd, htaken, hsum, hgrid, hgrid'⟩ : ∃ platform bd,
      taken amount platformShare bdShare hasBd = .ok (platform, bd) ∧
        platform.toRat + bd.toRat = platformShare.toRat + bdShare.toRat ∧
        OnGrid s platform.toRat ∧ OnGrid s bd.toRat := by
    cases hasBd with
    | true => exact ⟨platformShare, bdShare, rfl, rfl, hplatformGrid, hbdGrid⟩
    | false =>
      obtain ⟨both, hboth, hvalue⟩ := exists_add?_of_onGrid h.scale_le hplatformGrid hbdGrid
        (hshares.trans_lt h.lt_end)
      refine ⟨both, .zero, ?_, by rw [hvalue, toRat_zero, add_zero],
        hvalue ▸ hplatformGrid.add hbdGrid, toRat_zero ▸ .zero⟩
      simp only [taken, hboth]
      rfl
  rw [← hsum] at hshares
  have hleft : platform.toRat ≤ amount.toRat := by linarith [hgrid'.nonneg]
  have hamount : OnGrid s amount.toRat :=
    onGrid_of_scale_le h.amount_nonneg (by have := h.platform_scale; omega)
  obtain ⟨rest, hrest, hrestValue⟩ :=
    exists_sub?_of_onGrid h.scale_le hamount hgrid h.lt_end hleft
  have hrestGrid : OnGrid s rest.toRat := hrestValue ▸ hamount.sub hgrid hleft
  obtain ⟨owner, howner, hownerValue⟩ := exists_sub?_of_onGrid h.scale_le hrestGrid hgrid'
    (by linarith [hgrid.nonneg, h.lt_end]) (by linarith)
  refine ⟨⟨platform, bd, owner⟩, ?_, by rw [sum]; linarith⟩
  simp only [of, bind_eq_ok, orOverflow_eq_ok, require_eq_ok, pure_eq_ok, Prod.exists,
    Option.bind_eq_some_iff]
  refine ⟨platformShare, hplatform, bdShare, hbd, platform, bd, htaken, owner,
    ⟨rest, hrest, howner⟩, (), ?_, rfl⟩
  simp only [not_or, not_lt_zero_iff]
  exact ⟨hgrid.nonneg, hgrid'.nonneg, by linarith⟩

example : FewDigits 4 tenth twoAndHalf .zero := by
  constructor <;> decide +kernel

end ChainLedger.RevenueSplit
