import ChainLedger.Proofs.Decimal.Faithful
import ChainLedger.Proofs.Decimal.Shortest
import ChainLedger.Transition.Fraction

/-!
# Supplies that are counted in smallest units

The chain gives a supply as a whole number of smallest units, and says how
many fraction digits these have. Whether that is read is asked of the two
integers as they are: the units must be below the bound on coefficients, and
the scale in range (`exists_supplyOf_iff`). What is read is the exact number
in its shortest form (`shortest_of_supplyOf`). Units that end in so many
zeros that the number would be a decimal again are refused all the same
(`supplyOf_refuses_representable`).
-/

namespace ChainLedger

-- A power is the one of the core library, whatever other structure is in scope.
attribute [local instance (2000)] instPowNat

open Decimal

variable {raw decimals : Nat} {d : Decimal}

/-- A supply that is read has units below the bound and a scale in range. -/
theorem bounds_of_supplyOf (h : supplyOf raw decimals = .ok d) :
    raw < coeffBound ∧ decimals ≤ maxScale := by
  unfold supplyOf at h
  split at h
  · cases h
  · split at h
    · cases h
    · next hfine =>
      split at h
      · next parts hparts =>
        refine ⟨?_, not_lt.mp hfine⟩
        obtain ⟨hcoeff, -⟩ := coeff_of_ofParts? hparts
        have hdigits := parts.digits_lt
        rwa [← natAbs_coeff, hcoeff, Int.natAbs_natCast] at hdigits
      · cases h

/-- A supply in the range is the shortest form of its parts. -/
theorem supplyOf_of_bounds (hraw : raw < coeffBound) (hscale : decimals ≤ maxScale) :
    ∃ parts : Decimal, supplyOf raw decimals = .ok parts.normalize ∧
      parts.toRat = (raw : Rat) / ((10 ^ decimals : Nat) : Rat) := by
  have hword : ¬ 2 ^ (127 : Nat) ≤ raw := by
    have hbound : coeffBound ≤ 2 ^ (127 : Nat) := by decide
    omega
  have hcoeff : (raw : Int).natAbs ≤ maxCoeff := by
    rw [Int.natAbs_natCast]
    exact Nat.le_sub_one_of_lt hraw
  obtain ⟨parts, hparts⟩ := exists_ofParts? hcoeff hscale
  obtain ⟨hvalue, hplaces⟩ := coeff_of_ofParts? hparts
  refine ⟨parts, ?_, ?_⟩
  · rw [supplyOf, if_neg hword, if_neg (not_lt.mpr hscale), hparts]
  · rw [toRat, hvalue, hplaces, Int.cast_natCast]

/-- **A supply is read** if its units are below the bound on coefficients and
its scale is in range, and only then. -/
theorem exists_supplyOf_iff (raw decimals : Nat) :
    (∃ d, supplyOf raw decimals = .ok d) ↔ raw < coeffBound ∧ decimals ≤ maxScale := by
  constructor
  · rintro ⟨d, hd⟩
    exact bounds_of_supplyOf hd
  · rintro ⟨hraw, hscale⟩
    obtain ⟨parts, hparts, -⟩ := supplyOf_of_bounds hraw hscale
    exact ⟨parts.normalize, hparts⟩

/-- **A supply that is read is exact**, with the fewest fraction digits. -/
theorem shortest_of_supplyOf (h : supplyOf raw decimals = .ok d) :
    Shortest ((raw : Rat) / ((10 ^ decimals : Nat) : Rat)) d := by
  obtain ⟨hraw, hscale⟩ := bounds_of_supplyOf h
  obtain ⟨parts, hparts, hvalue⟩ := supplyOf_of_bounds hraw hscale
  rw [hparts, Except.ok.injEq] at h
  rw [← hvalue, ← h]
  exact parts.shortest_normalize

/-- **A supply is read exactly, or refused** for its units or its scale. -/
theorem supplyOf_iff_and_shortest (raw decimals : Nat) :
    ((∃ d, supplyOf raw decimals = .ok d) ↔ raw < coeffBound ∧ decimals ≤ maxScale) ∧
      ∀ d, supplyOf raw decimals = .ok d →
        Shortest ((raw : Rat) / ((10 ^ decimals : Nat) : Rat)) d :=
  ⟨exists_supplyOf_iff raw decimals, fun _ => shortest_of_supplyOf⟩

/-- A hundred thousand million tokens of eighteen fraction digits are a
decimal, and more units than a coefficient holds. -/
theorem supplyOf_refuses_representable :
    ¬ ((∃ d, supplyOf (10 ^ (29 : Nat)) 18 = .ok d) ↔
      Representable (((10 ^ (29 : Nat) : Nat) : Rat) / ((10 ^ (18 : Nat) : Nat) : Rat))) := by
  rw [exists_supplyOf_iff]
  have hmany : ¬ 10 ^ (29 : Nat) < coeffBound := by decide
  have hdecimal :
      Representable (((10 ^ (29 : Nat) : Nat) : Rat) / ((10 ^ (18 : Nat) : Nat) : Rat)) := by
    refine ⟨⟨false, 10 ^ (11 : Nat), 0, by decide, by decide⟩, ?_⟩
    norm_num [toRat, coeff]
  exact fun h => hmany (h.mpr hdecimal).1

end ChainLedger
