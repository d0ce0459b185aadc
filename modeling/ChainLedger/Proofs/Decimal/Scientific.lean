import ChainLedger.Proofs.Decimal.Numeral
import Mathlib.Data.List.TakeWhile

/-!
# What a numeral denotes

A numeral may end in an exponent, which moves its point (`Numeral.value?`).
What is read for it is again less than a unit of its last digit away, and it
is the number if that and the numeral before the exponent are decimals
(`Numeral.Understood`): the numeral before the exponent is read first, and
what is cut off there does not come back when the point moves to the right.
-/

namespace ChainLedger

-- A power is the one of the core library, whatever other structure is in scope.
attribute [local instance (2000)] instPowNat

namespace Numeral

open Decimal

/-! ## The number that is written -/

/-- A text without a plus in front. -/
def unplus : List Char → List Char
  | '+' :: cs => cs
  | cs => cs

/-- An unsigned integer, perhaps with a plus. -/
def natural? (cs : List Char) : Option Nat :=
  if unplus cs ≠ [] ∧ (unplus cs).all Char.isDigit then some (gather 0 (digits (unplus cs)))
  else none

/-- An exponent: whether it moves the point to the left, and how far. -/
def exponent? : List Char → Option (Bool × Nat)
  | '-' :: cs => (natural? cs).map (true, ·)
  | cs => (natural? cs).map (false, ·)

/-- A number after its point was moved. -/
def moved (x : Rat) : Bool × Nat → Rat
  | (true, n) => x / 10 ^ n
  | (false, n) => x * 10 ^ n

/-- What stands before the mark of an exponent. -/
def base (cs : List Char) : List Char := cs.takeWhile fun c => !isExponentMark c

/-- **The number that a numeral denotes.** -/
def value? (cs : List Char) : Option Rat :=
  match cs.dropWhile (fun c => !isExponentMark c) with
  | [] => plain? cs
  | _ :: e => (plain? (base cs)).bind fun x => (exponent? e).map (moved x)

/-- **What is read for a text.** -/
structure Understood (cs : List Char) (q : Rat) (d : Decimal) : Prop where
  /-- The text denotes the number. -/
  denotes : value? cs = some q
  /-- What is read is less than a unit of its last digit away. -/
  near : |d.toRat - q| * ((10 ^ d.scale : Nat) : Rat) < 1
  /-- It is the number if that is a decimal, and the numeral before the exponent another. -/
  exact : Representable q → (∀ x, plain? (base cs) = some x → Representable x) → d.toRat = q

variable {n k m : Nat} {cs : List Char} {s : String} {x q : Rat} {a d : Decimal}

/-! ## The point moves to the right -/

theorem toRat_of_shift? (h : shift? a n = some d) : d.toRat = a.toRat * 10 ^ n := by
  unfold shift? at h
  split at h
  · next hle =>
    obtain ⟨hcoeff, hscale⟩ := coeff_of_ofParts? h
    obtain ⟨j, hj⟩ : ∃ j, a.scale = j + n := ⟨a.scale - n, by omega⟩
    rw [toRat, toRat, hcoeff, hscale, hj, Nat.add_sub_cancel, Nat.pow_add]
    push_cast
    field_simp
  · next hlt =>
    split at h
    · cases h
    · obtain ⟨hcoeff, hscale⟩ := coeff_of_ofParts? h
      obtain ⟨j, hj⟩ : ∃ j, n = a.scale + j := ⟨n - a.scale, by omega⟩
      rw [toRat, toRat, hcoeff, hscale, hj, Nat.add_sub_cancel_left, pow_add]
      push_cast
      field_simp

/-- **A full coefficient cannot grow**: a number that was cut off is not moved
beyond its last digit. -/
theorem eq_of_shift?_of_lt (ha : Reads x a) (hlt : a.scale < n) (h : shift? a n = some d) :
    a.toRat = x := by
  unfold shift? at h
  rw [if_neg (not_le.mpr hlt)] at h
  split at h
  · cases h
  · next hfew =>
    obtain ⟨hcoeff, -⟩ := coeff_of_ofParts? h
    obtain ⟨j, hj⟩ : ∃ j, n - a.scale = j + 1 := ⟨n - a.scale - 1, by omega⟩
    rcases ha.full with heq | hfinest | hfull
    · exact heq
    · omega
    · have hdigits : d.digits = a.digits * 10 * 10 ^ j := by
        rw [← natAbs_coeff, hcoeff, hj, Int.natAbs_mul, natAbs_coeff, Int.natAbs_pow, Nat.pow_succ,
          Nat.mul_comm (_ ^ j), Nat.mul_assoc]
        rfl
      have hgrow : a.digits * 10 ≤ a.digits * 10 * 10 ^ j :=
        Nat.le_mul_of_pos_right _ (Nat.pow_pos (by decide))
      have hsmall : d.digits < coeffBound := d.digits_lt
      omega

/-- **A number whose point was moved to the right** is as near as it was. -/
theorem near_of_shift? (ha : Reads x a) (h : shift? a n = some d) :
    |d.toRat - x * 10 ^ n| * ((10 ^ d.scale : Nat) : Rat) < 1 := by
  have hvalue := toRat_of_shift? h
  rcases le_or_gt n a.scale with hle | hlt
  · have hscale : d.scale = a.scale - n := by
      unfold shift? at h
      rw [if_pos hle] at h
      exact (coeff_of_ofParts? h).2
    have hpow :
        (10 : Rat) ^ n * ((10 ^ (a.scale - n) : Nat) : Rat) = ((10 ^ a.scale : Nat) : Rat) := by
      rw [Nat.cast_pow, Nat.cast_pow, Nat.cast_ofNat, ← pow_add, Nat.add_sub_cancel' hle]
    have hten : (0 : Rat) < 10 ^ n := by positivity
    rw [hvalue, hscale, ← sub_mul, abs_mul, abs_of_pos hten, mul_assoc, hpow]
    exact ha.near
  · rw [hvalue, eq_of_shift?_of_lt ha hlt h, sub_self, abs_zero, zero_mul]
    exact zero_lt_one

/-! ## The point moves to the left -/

/-- Half up is at most half a unit away. -/
theorem roundHalfUp_bounds (m k : Nat) :
    2 * m ≤ 2 * (roundHalfUp m k * 10 ^ k) + 10 ^ k ∧
      2 * (roundHalfUp m k * 10 ^ k) ≤ 2 * m + 10 ^ k := by
  cases k with
  | zero => simp [roundHalfUp]
  | succ k =>
    show 2 * m ≤ 2 * ((m / 10 ^ k + 5) / 10 * 10 ^ (k + 1)) + 10 ^ (k + 1) ∧
      2 * ((m / 10 ^ k + 5) / 10 * 10 ^ (k + 1)) ≤ 2 * m + 10 ^ (k + 1)
    have hpow : 0 < 10 ^ k := Nat.pow_pos (by decide)
    have hsplit : m / 10 ^ k * 10 ^ k + m % 10 ^ k = m := Nat.div_add_mod' m (10 ^ k)
    have hrest : m % 10 ^ k < 10 ^ k := Nat.mod_lt m hpow
    generalize m / 10 ^ k = u at hsplit ⊢
    have hlow : u * 10 ^ k ≤ ((u + 5) / 10 * 10 + 4) * 10 ^ k := Nat.mul_le_mul_right _ (by omega)
    have hhigh : (u + 5) / 10 * 10 * 10 ^ k ≤ (u + 5) * 10 ^ k := Nat.mul_le_mul_right _ (by omega)
    have hmul : (u + 5) / 10 * 10 ^ (k + 1) = (u + 5) / 10 * 10 * 10 ^ k := by
      rw [Nat.pow_succ, Nat.mul_comm (10 ^ k), ← Nat.mul_assoc]
    rw [hmul, Nat.pow_succ]
    rw [Nat.add_mul] at hlow hhigh
    omega

/-- Zeros are dropped without a trace. -/
theorem roundHalfUp_mul (m k : Nat) : roundHalfUp (m * 10 ^ k) k = m := by
  cases k with
  | zero => simp [roundHalfUp]
  | succ k =>
    have hpow : 0 < 10 ^ k := Nat.pow_pos (by decide)
    have htenth : m * 10 ^ (k + 1) / 10 ^ k = m * 10 := by
      rw [Nat.pow_succ, Nat.mul_comm (10 ^ k), ← Nat.mul_assoc, Nat.mul_div_cancel _ hpow]
    rw [roundHalfUp, htenth]
    omega

theorem toRat_eq_signed (d : Decimal) :
    d.toRat = signed d.negative ((d.digits : Rat) / ((10 ^ d.scale : Nat) : Rat)) := by
  unfold toRat coeff signed
  split
  · rw [Int.cast_neg, Int.cast_natCast, neg_div]
  · rw [Int.cast_natCast]

/-- A number whose point was moved to the left, in its digits. -/
theorem toRat_div_pow (a : Decimal) (n : Nat) :
    a.toRat / 10 ^ n =
      signed a.negative ((a.digits : Rat) / ((10 ^ (a.scale + n) : Nat) : Rat)) := by
  have hpow : ((10 ^ (a.scale + n) : Nat) : Rat) = ((10 ^ a.scale : Nat) : Rat) * 10 ^ n := by
    rw [Nat.pow_add, Nat.cast_mul, Nat.cast_pow 10 n, Nat.cast_ofNat]
  rw [toRat_eq_signed, hpow, ← div_div]
  cases a.negative with
  | false => rfl
  | true => exact neg_div _ _

/-- **What a number has no place for is rounded** when its point moves to the
left. -/
theorem of_shiftDown? (h : shiftDown? a n = some d) (hk : k = a.scale + n - maxScale) :
    d.scale = min (a.scale + n) maxScale ∧
      d.toRat = signed a.negative
        (((roundHalfUp a.digits k * 10 ^ k : Nat) : Rat) / ((10 ^ (a.scale + n) : Nat) : Rat)) := by
  unfold shiftDown? at h
  split at h
  · cases h
  · cases h
    refine ⟨rfl, ?_⟩
    subst hk
    have hlong : ((10 ^ (a.scale + n) : Nat) : Rat) =
        ((10 ^ min (a.scale + n) maxScale : Nat) : Rat) *
          ((10 ^ (a.scale + n - maxScale) : Nat) : Rat) := by
      rw [← Nat.cast_mul, ← Nat.pow_add]
      congr 2
      omega
    have hpow : ((10 ^ (a.scale + n - maxScale) : Nat) : Rat) ≠ 0 := by positivity
    rw [toRat_eq_signed, hlong, Nat.cast_mul, mul_div_mul_right _ _ hpow]

/-- What is rounded away of some digits is less than a unit of the last that is
kept, by one at least. -/
theorem abs_roundHalfUp_sub_le (m k : Nat) :
    |((roundHalfUp m k * 10 ^ k : Nat) : Rat) - m| + 1 ≤ ((10 ^ k : Nat) : Rat) := by
  rcases Nat.eq_zero_or_pos k with rfl | hk
  · simp [roundHalfUp]
  · obtain ⟨hlow, hhigh⟩ := roundHalfUp_bounds m k
    have hten : 10 ^ 1 ≤ 10 ^ k := Nat.pow_le_pow_right (by decide) hk
    have hlow' :
        (m : Rat) + 1 ≤ ((roundHalfUp m k * 10 ^ k : Nat) : Rat) + ((10 ^ k : Nat) : Rat) := by
      exact_mod_cast (by omega : m + 1 ≤ roundHalfUp m k * 10 ^ k + 10 ^ k)
    have hhigh' :
        ((roundHalfUp m k * 10 ^ k : Nat) : Rat) + 1 ≤ (m : Rat) + ((10 ^ k : Nat) : Rat) := by
      exact_mod_cast (by omega : roundHalfUp m k * 10 ^ k + 1 ≤ m + 10 ^ k)
    rw [← le_sub_iff_add_le, abs_le]
    constructor <;> linarith

/-- **A number whose point was moved to the left** is near the exact one. -/
theorem near_of_shiftDown? (ha : Reads x a) (h : shiftDown? a n = some d) :
    |d.toRat - x / 10 ^ n| * ((10 ^ d.scale : Nat) : Rat) < 1 := by
  obtain ⟨hscale, hvalue⟩ := of_shiftDown? h rfl
  generalize hk : a.scale + n - maxScale = k at hvalue
  have hten : (0 : Rat) < 10 ^ n := by positivity
  have hpow : (0 : Rat) < ((10 ^ k : Nat) : Rat) := by positivity
  have hlong : (0 : Rat) < ((10 ^ (a.scale + n) : Nat) : Rat) := by positivity
  have hplaces : ((10 ^ d.scale : Nat) : Rat) * ((10 ^ k : Nat) : Rat) =
      ((10 ^ (a.scale + n) : Nat) : Rat) := by
    rw [← Nat.cast_mul, ← Nat.pow_add]
    congr 2
    omega
  -- What is rounded now, and what was when the number was read.
  have hnow : |d.toRat - a.toRat / 10 ^ n| * ((10 ^ (a.scale + n) : Nat) : Rat) =
      |((roundHalfUp a.digits k * 10 ^ k : Nat) : Rat) - a.digits| := by
    rw [hvalue, toRat_div_pow, abs_signed_sub, ← sub_div, abs_div, abs_of_pos hlong,
      div_mul_cancel₀ _ hlong.ne']
  have hbefore : |a.toRat / 10 ^ n - x / 10 ^ n| * ((10 ^ (a.scale + n) : Nat) : Rat) < 1 := by
    have hsplit : ((10 ^ (a.scale + n) : Nat) : Rat) = 10 ^ n * ((10 ^ a.scale : Nat) : Rat) := by
      rw [Nat.pow_add, Nat.cast_mul, Nat.cast_pow 10 n, Nat.cast_ofNat, mul_comm]
    rw [← sub_div, abs_div, abs_of_pos hten, hsplit, ← mul_assoc, div_mul_cancel₀ _ hten.ne']
    exact ha.near
  have hround := abs_roundHalfUp_sub_le a.digits k
  have htriangle := abs_sub_le d.toRat (a.toRat / 10 ^ n) (x / 10 ^ n)
  rw [← mul_lt_mul_iff_of_pos_right hpow, mul_assoc, hplaces, one_mul]
  calc |d.toRat - x / 10 ^ n| * ((10 ^ (a.scale + n) : Nat) : Rat)
      ≤ (|d.toRat - a.toRat / 10 ^ n| + |a.toRat / 10 ^ n - x / 10 ^ n|) *
          ((10 ^ (a.scale + n) : Nat) : Rat) := mul_le_mul_of_nonneg_right htriangle hlong.le
    _ < |((roundHalfUp a.digits k * 10 ^ k : Nat) : Rat) - a.digits| + 1 := by
      rw [add_mul, hnow]
      linarith
    _ ≤ ((10 ^ k : Nat) : Rat) := hround

/-- **A decimal whose point was moved to the left** is exact, if it is still a
decimal. -/
theorem toRat_of_shiftDown? (h : shiftDown? a n = some d)
    (hq : Representable (a.toRat / 10 ^ n)) : d.toRat = a.toRat / 10 ^ n := by
  obtain ⟨-, hvalue⟩ := of_shiftDown? h rfl
  generalize hk : a.scale + n - maxScale = k at hvalue
  obtain ⟨e, he⟩ := hq
  have hlong : (0 : Rat) < ((10 ^ (a.scale + n) : Nat) : Rat) := by positivity
  have hplaces : (0 : Rat) < ((10 ^ e.scale : Nat) : Rat) := by positivity
  -- The digits that have no place are zeros, as the other decimal has none there.
  have hzeros : ∃ m, a.digits = m * 10 ^ k := by
    have habs := e.abs_toRat
    have hnonneg : (0 : Rat) ≤ (a.digits : Rat) / ((10 ^ (a.scale + n) : Nat) : Rat) := by
      positivity
    have hsign : |signed a.negative ((a.digits : Rat) / ((10 ^ (a.scale + n) : Nat) : Rat))| =
        (a.digits : Rat) / ((10 ^ (a.scale + n) : Nat) : Rat) := by
      cases a.negative with
      | false => exact abs_of_nonneg hnonneg
      | true => rw [signed, if_pos rfl, abs_neg, abs_of_nonneg hnonneg]
    rw [he, toRat_div_pow, hsign, div_eq_div_iff hlong.ne' hplaces.ne', ← Nat.cast_mul,
      ← Nat.cast_mul, Nat.cast_inj] at habs
    have hscale : e.scale ≤ maxScale := e.scale_le
    rcases Nat.eq_zero_or_pos k with rfl | hpos
    · exact ⟨a.digits, by rw [Nat.pow_zero, Nat.mul_one]⟩
    · obtain ⟨j, hj⟩ : ∃ j, a.scale + n = j + k + e.scale := ⟨a.scale + n - k - e.scale, by omega⟩
      refine ⟨e.digits * 10 ^ j, ?_⟩
      rw [hj, Nat.pow_add, Nat.pow_add, ← Nat.mul_assoc, ← Nat.mul_assoc] at habs
      exact Nat.eq_of_mul_eq_mul_right (Nat.pow_pos (by decide)) habs
  obtain ⟨m, hm⟩ := hzeros
  rw [hvalue, toRat_div_pow, hm, roundHalfUp_mul]

/-! ## Exponents -/

theorem gather_digits {ds : List Char} (h : ds.all Char.isDigit = true) :
    ds.foldl (fun n c => n * 10 + (c.toNat - '0'.toNat)) n = gather n (digits ds) := by
  induction ds generalizing n with
  | nil => rfl
  | cons c ds ih =>
    rw [List.all_cons, Bool.and_eq_true] at h
    have hc : digit? c = some (c.toNat - '0'.toNat) := by rw [digit?, if_pos h.1]
    rw [digits_cons_of_digit hc, List.foldl_cons, ih h.2]
    rfl

theorem natural?_of_count? (h : count? cs = some n) : natural? cs = some n := by
  have hcount : count? cs =
      if unplus cs = [] ∨ ¬ (unplus cs).all Char.isDigit then none
      else
        let n := (unplus cs).foldl (fun n c => n * 10 + (c.toNat - '0'.toNat)) 0
        if n < 2 ^ (32 : Nat) then some n else none := rfl
  rw [hcount] at h
  split at h
  · cases h
  · next hform =>
    rw [not_or, Decidable.not_not] at hform
    rw [natural?, if_pos hform, ← gather_digits hform.2]
    simp only at h
    split at h
    · exact h
    · cases h

/-! ## Whole texts -/

/-- A plain numeral has no exponent. -/
theorem dropWhile_of_plain? (h : plain? cs = some q) :
    cs.dropWhile (fun c => !isExponentMark c) = [] := by
  unfold plain? at h
  split at h
  · next hbody =>
    have hchars : ∀ c ∈ (unsign cs).2, isExponentMark c = false := by
      intro c hc
      rw [isBody, Bool.and_eq_true, Bool.and_eq_true] at hbody
      have hpassed := List.all_eq_true.mp hbody.1.1 c hc
      by_contra hmark
      simp only [isExponentMark, Bool.not_eq_false, Bool.or_eq_true, decide_eq_true_eq] at hmark
      rcases hmark with rfl | rfl <;> cases hpassed
    rw [List.dropWhile_eq_nil_iff]
    intro c hc
    rw [Bool.not_eq_true']
    unfold unsign at hchars
    split at hchars
    · rcases List.mem_cons.mp hc with rfl | hc
      · rfl
      · exact hchars c hc
    · rcases List.mem_cons.mp hc with rfl | hc
      · rfl
      · exact hchars c hc
    · exact hchars c hc
  · cases h

theorem value?_of_plain? (h : plain? cs = some q) : value? cs = some q := by
  rw [value?, dropWhile_of_plain? h]
  exact h

/-- **A text is understood.** -/
theorem exists_understood (h : ofText? s = some d) : ∃ q, Understood s.toList q d := by
  unfold ofText? at h
  split at h
  · next d' hplain =>
    cases h
    obtain ⟨q, hq, hreads⟩ := reads_of_ofPlain? hplain
    exact ⟨q, value?_of_plain? hq, hreads.near, fun hrep _ => hreads.exact hrep⟩
  · unfold ofScientific? at h
    split at h
    · cases h
    · next mark e hmark =>
      split at h
      · cases h
      · next a hbase =>
        obtain ⟨x, hx, hreads⟩ := reads_of_ofPlain? hbase
        have hexact (hall : ∀ y, plain? (base s.toList) = some y → Representable y) : a.toRat = x :=
          hreads.exact (hall x hx)
        have hvalue : value? s.toList = (exponent? e).map (moved x) := by
          rw [value?, hmark]
          exact congrArg (fun o => o.bind fun x => (exponent? e).map (moved x)) hx
        split at h
        · next e' =>
          obtain ⟨n, hn, hd⟩ := Option.bind_eq_some_iff.mp h
          refine ⟨x / 10 ^ n, ?_, near_of_shiftDown? hreads hd, fun hq hall => ?_⟩
          · rw [hvalue, exponent?, natural?_of_count? hn]
            rfl
          · rw [← hexact hall] at hq ⊢
            exact toRat_of_shiftDown? hd hq
        · next hminus =>
          obtain ⟨n, hn, hd⟩ := Option.bind_eq_some_iff.mp h
          refine ⟨x * 10 ^ n, ?_, near_of_shift? hreads hd, fun _ hall => ?_⟩
          · have hexponent : exponent? e = (natural? e).map (false, ·) := by
              unfold exponent?
              split
              · next rest => exact absurd rfl (hminus rest)
              · rfl
            rw [hvalue, hexponent, natural?_of_count? hn]
            rfl
          · rw [toRat_of_shift? hd, hexact hall]

/-- **A plain numeral is read exactly** if and only if it stands for a
decimal. -/
theorem Understood.eq_iff (h : Understood cs q d) (hplain : plain? cs = some q) :
    d.toRat = q ↔ Representable q := by
  refine ⟨fun hd => ⟨d, hd⟩, fun hq => h.exact hq fun x hx => ?_⟩
  have hall := List.dropWhile_eq_nil_iff.mp (dropWhile_of_plain? hplain)
  rw [base, List.takeWhile_eq_self_iff.mpr hall, hplain, Option.some.injEq] at hx
  exact hx ▸ hq

/-- **A plain numeral that stands for a decimal** is not refused. -/
theorem exists_ofText? (h : plain? s.toList = some q) (hq : Representable q) :
    ∃ d, ofText? s = some d ∧ d.toRat = q := by
  obtain ⟨d, hd, hvalue⟩ := exists_ofPlain? h hq
  exact ⟨d, by rw [ofText?, hd], hvalue⟩

end Numeral

end ChainLedger
