import ChainLedger.Decimal.Numeral
import ChainLedger.Proofs.Decimal.Faithful

/-!
# What a plain numeral denotes, and what is read for it

A numeral without exponent is a sign, digits with at most one point, and
underscores after the first digit (`Numeral.isBody`). It denotes the integer
that its digits make up, with as many fraction digits as stand after the point
(`Numeral.plain?`), however many these are.

What is read for it is a decimal less than one unit of its last digit away
(`Numeral.Reads`). It is the number itself whenever some decimal is: a digit
is cut off only at the finest scale or where the coefficient is full, and a
decimal has nothing but zeros there (`Cut.eq_zero`). Only plain numerals are
read (`reads_of_ofPlain?`), and all that stand for a decimal are
(`exists_ofPlain?`).
-/

namespace ChainLedger

-- A power is the one of the core library, whatever other structure is in scope.
attribute [local instance (2000)] instPowNat

namespace Numeral

open Decimal

/-! ## The number that is written -/

/-- The digits of a text; all else is passed over. -/
def digits (cs : List Char) : List Nat := cs.filterMap digit?

/-- The integer that some digits make up after those of `n`. -/
def gather (n : Nat) (ds : List Nat) : Nat := ds.foldl (fun n d => n * 10 + d) n

/-- What stands from the point on. -/
def fraction (cs : List Char) : List Char := cs.dropWhile (· ≠ '.')

/-- The characters of a numeral after its sign: digits and underscores with at
most one point, and a digit before any underscore. -/
def isBody (cs : List Char) : Bool :=
  cs.all (fun c => isPassed c || c = '.') && decide (cs.count '.' ≤ 1) &&
    (cs.find? (· ≠ '.')).any Char.isDigit

/-- The number that is written without a sign. -/
def magnitude (cs : List Char) : Rat :=
  (gather 0 (digits cs) : Rat) / ((10 ^ (digits (fraction cs)).length : Nat) : Rat)

/-- A number under a sign. -/
def signed (negative : Bool) (x : Rat) : Rat := if negative then -x else x

/-- The sign of a numeral, and what follows it. -/
def unsign : List Char → Bool × List Char
  | '-' :: cs => (true, cs)
  | '+' :: cs => (false, cs)
  | cs => (false, cs)

/-- **The number that a numeral without exponent denotes.** -/
def plain? (cs : List Char) : Option Rat :=
  if isBody (unsign cs).2 then some (signed (unsign cs).1 (magnitude (unsign cs).2)) else none

/-- **What is read for a number.** -/
structure Reads (q : Rat) (d : Decimal) : Prop where
  /-- It is less than a unit of its last digit away. -/
  near : |d.toRat - q| * ((10 ^ d.scale : Nat) : Rat) < 1
  /-- It is the number as soon as some decimal is. -/
  exact : Representable q → d.toRat = q
  /-- If it is not the number, it has no place for another digit. -/
  full : d.toRat = q ∨ d.scale = maxScale ∨ coeffBound ≤ d.digits * 10

variable {negative : Bool} {n k value places scale : Nat} {c : Char} {cs rest : List Char}
  {f x y q : Rat} {d : Decimal} {r : Reading}

theorem Reads.of_eq (h : d.toRat = q) : Reads q d where
  near := by
    rw [h, sub_self, abs_zero, zero_mul]
    exact zero_lt_one
  exact _ := h
  full := .inl h

/-! ## Signs -/

theorem abs_signed_sub (negative : Bool) (x y : Rat) :
    |signed negative x - signed negative y| = |x - y| := by
  cases negative with
  | false => rfl
  | true => rw [signed, signed, if_pos rfl, if_pos rfl, ← neg_sub', abs_neg]

theorem representable_signed : Representable (signed negative x) ↔ Representable x := by
  cases negative with
  | false => rfl
  | true =>
    have hneg {y : Rat} : Representable y → Representable (-y) := by
      rintro ⟨e, rfl⟩
      exact ⟨e.neg, toRat_neg e⟩
    exact ⟨fun h => neg_neg x ▸ hneg h, hneg⟩

theorem toRat_of_signed? (h : signed? negative value scale = some d) :
    d.toRat = signed negative ((value : Rat) / ((10 ^ scale : Nat) : Rat)) ∧ d.digits = value ∧
      d.scale = scale := by
  obtain ⟨hcoeff, hscale⟩ := coeff_of_ofParts? h
  have hdigits : d.digits = value := by
    rw [← natAbs_coeff, hcoeff]
    cases negative <;> simp
  refine ⟨?_, hdigits, hscale⟩
  rw [toRat, hcoeff, hscale]
  cases negative with
  | false => rfl
  | true =>
    rw [if_pos rfl, signed, if_pos rfl, Int.cast_neg, Int.cast_natCast, neg_div]

theorem exists_signed? (negative : Bool) (hvalue : value < coeffBound) (hscale : scale ≤ maxScale) :
    ∃ d, signed? negative value scale = some d := by
  have hdigits : (if negative then -(value : Int) else value).natAbs = value := by
    cases negative <;> simp
  exact exists_ofParts? (hdigits.trans_le (Nat.le_sub_one_of_lt hvalue)) hscale

/-! ## Digits that are cut off -/

/-- **A fraction of the last digit is cut off**: at the finest scale, or where
one more digit would be too much. -/
structure Cut (value places : Nat) (f : Rat) : Prop where
  nonneg : 0 ≤ f
  lt_one : f < 1
  full : places = maxScale ∨ (coeffBound : Rat) ≤ (value + f) * 10

/-- **Nothing but zeros is cut off** of a number that is a decimal. -/
theorem Cut.eq_zero (h : Cut value places f)
    (hx : Representable ((value + f) / ((10 ^ places : Nat) : Rat))) : f = 0 := by
  obtain ⟨e, he⟩ := hx
  have hplaces : (0 : Rat) < ((10 ^ places : Nat) : Rat) := by positivity
  have hscale : (0 : Rat) < ((10 ^ e.scale : Nat) : Rat) := by positivity
  have hnonneg : (0 : Rat) ≤ value + f := add_nonneg (Nat.cast_nonneg _) h.nonneg
  have hcross : (e.digits : Rat) * ((10 ^ places : Nat) : Rat) =
      (value + f) * ((10 ^ e.scale : Nat) : Rat) := by
    have habs := e.abs_toRat
    rw [he, abs_of_nonneg (div_nonneg hnonneg hplaces.le)] at habs
    exact ((div_eq_div_iff hplaces.ne' hscale.ne').mp habs).symm
  rcases le_or_gt e.scale places with hcoarse | hfine
  · -- At this scale the decimal is an integer, and so is the fraction.
    obtain ⟨j, rfl⟩ : ∃ j, places = e.scale + j := ⟨places - e.scale, by omega⟩
    have hinteger : ((e.digits * 10 ^ j : Nat) : Rat) = value + f := by
      rw [Nat.pow_add] at hcross
      push_cast at hcross hscale ⊢
      refine mul_right_cancel₀ hscale.ne' ?_
      linarith
    have hlow : value ≤ e.digits * 10 ^ j := by
      have hle : (value : Rat) ≤ ((e.digits * 10 ^ j : Nat) : Rat) := by linarith [h.nonneg]
      exact Nat.cast_le.mp hle
    have hhigh : e.digits * 10 ^ j < value + 1 := by
      have hlt : ((e.digits * 10 ^ j : Nat) : Rat) < ((value + 1 : Nat) : Rat) := by
        push_cast at hinteger ⊢
        linarith [h.lt_one]
      exact Nat.cast_lt.mp hlt
    have heq : e.digits * 10 ^ j = value := by omega
    rw [heq] at hinteger
    linarith
  · -- With one more digit the coefficient would be out of range.
    obtain ⟨j, hj⟩ : ∃ j, e.scale = places + 1 + j := ⟨e.scale - places - 1, by omega⟩
    have hlarge : (coeffBound : Rat) ≤ (value + f) * 10 :=
      h.full.resolve_left fun hfinest =>
        absurd e.scale_le (not_le.mpr (hfinest.symm.trans_lt hfine))
    have hdigits : (e.digits : Rat) = (value + f) * 10 * 10 ^ j := by
      rw [hj, Nat.pow_add, Nat.pow_succ] at hcross
      push_cast at hcross hplaces
      refine mul_right_cancel₀ hplaces.ne' ?_
      linarith
    have hgrow : (value + f) * 10 * 1 ≤ (value + f) * 10 * 10 ^ j :=
      mul_le_mul_of_nonneg_left (one_le_pow₀ (by norm_num)) (by linarith)
    have hlt : (e.digits : Rat) < coeffBound := Nat.cast_lt.mpr e.digits_lt
    linarith

/-- **Digits that are kept as they are**, where the fraction that is cut off is
less than a half if it is cut off for want of digits. -/
theorem Reads.of_kept (h : Cut value places f) (hdown : places = maxScale ∨ f < 1 / 2)
    (hd : signed? negative value places = some d) :
    Reads (signed negative ((value + f) / ((10 ^ places : Nat) : Rat))) d := by
  obtain ⟨hvalue, hdigits, hscale⟩ := toRat_of_signed? hd
  have hpow : (0 : Rat) < ((10 ^ places : Nat) : Rat) := by positivity
  refine ⟨?_, fun hq => ?_, .inr ?_⟩
  · rw [hvalue, hscale, abs_signed_sub, ← sub_div, abs_div, abs_of_pos hpow,
      div_mul_cancel₀ _ hpow.ne', sub_add_cancel_left, abs_neg, abs_of_nonneg h.nonneg]
    exact h.lt_one
  · rw [representable_signed] at hq
    rw [hvalue, h.eq_zero hq, add_zero]
  · rw [hscale, hdigits]
    rcases hdown with hfinest | hhalf
    · exact .inl hfinest
    · refine h.full.imp_right fun hlarge => ?_
      have hlt : (coeffBound : Rat) < ((value * 10 + 5 : Nat) : Rat) := by
        rw [Nat.cast_add, Nat.cast_mul, Nat.cast_ofNat, Nat.cast_ofNat]
        linarith
      have hlt' : coeffBound < value * 10 + 5 := Nat.cast_lt.mp hlt
      have hlast : coeffBound % 10 = 6 := by decide
      omega

/-- The greatest coefficient gives away its last digit, a five, to be rounded
up: what is cut off is half a unit at most. -/
theorem abs_greatest_sub_le {p : Nat} (hhalf : 1 / 2 ≤ f) (hone : f < 1) :
    |(((maxCoeff + 5) / 10 : Nat) : Rat) / ((10 ^ p : Nat) : Rat) -
      (maxCoeff + f) / ((10 ^ (p + 1) : Nat) : Rat)| * ((10 ^ p : Nat) : Rat) ≤ 1 / 2 := by
  have htenth : (maxCoeff + 5) / 10 * 10 = maxCoeff + 5 := by decide
  have hmul : (((maxCoeff + 5) / 10 : Nat) : Rat) * 10 = (maxCoeff : Rat) + 5 := by
    exact_mod_cast htenth
  have hpow : (0 : Rat) < ((10 ^ p : Nat) : Rat) := by positivity
  have hdiff : (((maxCoeff + 5) / 10 : Nat) : Rat) / ((10 ^ p : Nat) : Rat) -
      (maxCoeff + f) / ((10 ^ (p + 1) : Nat) : Rat) = (5 - f) / 10 / ((10 ^ p : Nat) : Rat) := by
    rw [Nat.pow_succ, Nat.cast_mul, Nat.cast_ofNat]
    field_simp
    linarith
  rw [hdiff, abs_div, abs_of_pos hpow, div_mul_cancel₀ _ hpow.ne', abs_of_pos (by linarith)]
  linarith

/-- **Digits that are rounded up**, for a fraction of a half at least. -/
theorem Reads.of_roundUp (h : Cut r.value r.places f) (hhalf : 1 / 2 ≤ f)
    (hvalue : r.value < coeffBound) (hd : roundUp negative r = some d) :
    Reads (signed negative ((r.value + f) / ((10 ^ r.places : Nat) : Rat))) d := by
  have hone := h.lt_one
  have hexact
      (hq : Representable (signed negative ((r.value + f) / ((10 ^ r.places : Nat) : Rat)))) :
      d.toRat = signed negative ((r.value + f) / ((10 ^ r.places : Nat) : Rat)) := by
    rw [representable_signed] at hq
    have hzero := h.eq_zero hq
    rw [hzero] at hhalf
    norm_num at hhalf
  have hpow : (0 : Rat) < ((10 ^ r.places : Nat) : Rat) := by positivity
  unfold roundUp at hd
  split at hd
  · obtain ⟨hup, hdigits, hscale⟩ := toRat_of_signed? hd
    refine ⟨?_, hexact, .inr ?_⟩
    · rw [hup, hscale, abs_signed_sub, ← sub_div, abs_div, abs_of_pos hpow,
        div_mul_cancel₀ _ hpow.ne', Nat.cast_add, Nat.cast_one, add_sub_add_left_eq_sub,
        abs_of_pos (sub_pos.mpr hone)]
      linarith
    · rw [hscale, hdigits]
      refine h.full.imp_right fun hlarge => ?_
      have hle : (coeffBound : Rat) ≤ (((r.value + 1) * 10 : Nat) : Rat) := by
        rw [Nat.cast_mul, Nat.cast_add, Nat.cast_one, Nat.cast_ofNat]
        linarith
      exact Nat.cast_le.mp hle
  · next hfull =>
    split at hd
    · cases hd
    · next hplaces =>
      obtain ⟨hup, hdigits, hscale⟩ := toRat_of_signed? hd
      obtain ⟨p, hp⟩ := Nat.exists_eq_succ_of_ne_zero hplaces
      have hgreatest : r.value = maxCoeff := by
        have hbound : coeffBound = maxCoeff + 1 := by decide
        omega
      rw [hgreatest] at hup hdigits
      refine ⟨?_, hexact, .inr (.inr ?_)⟩
      · rw [hup, hscale, abs_signed_sub, hgreatest, hp, Nat.succ_sub_one, Nat.succ_eq_add_one]
        exact (abs_greatest_sub_le hhalf hone).trans_lt one_half_lt_one
      · rw [hdigits]
        decide

/-! ## Digits of a text -/

theorem of_digit?_eq_some (h : digit? c = some k) : c.isDigit = true ∧ k < 10 := by
  unfold digit? at h
  split at h
  · next hdigit =>
    refine ⟨hdigit, ?_⟩
    have hzero : '0'.toNat = 48 := rfl
    rw [Option.some.injEq, hzero] at h
    simp only [Char.isDigit, Bool.and_eq_true, decide_eq_true_eq] at hdigit
    have hle : c.toNat ≤ 57 := hdigit.2
    omega
  · cases h

theorem digit?_eq_none_iff : digit? c = none ↔ c.isDigit = false := by
  unfold digit?
  split <;> simp_all

theorem digits_cons_of_digit (h : digit? c = some k) (cs : List Char) :
    digits (c :: cs) = k :: digits cs :=
  List.filterMap_cons_some h

theorem digits_cons_of_other (h : digit? c = none) (cs : List Char) :
    digits (c :: cs) = digits cs :=
  List.filterMap_cons_none h

theorem lt_ten_of_mem_digits (h : k ∈ digits cs) : k < 10 := by
  obtain ⟨c, -, hc⟩ := List.mem_filterMap.mp h
  exact (of_digit?_eq_some hc).2

theorem gather_eq (n : Nat) (ds : List Nat) :
    gather n ds = n * 10 ^ ds.length + gather 0 ds := by
  induction ds generalizing n with
  | nil => simp [gather]
  | cons k ds ih =>
    show gather (n * 10 + k) ds = _ + gather (0 * 10 + k) ds
    rw [ih, ih (0 * 10 + k), List.length_cons, Nat.pow_succ]
    ring

theorem gather_lt {ds : List Nat} (h : ∀ k ∈ ds, k < 10) : gather 0 ds < 10 ^ ds.length := by
  induction ds with
  | nil => simp [gather]
  | cons k ds ih =>
    have hk := h k List.mem_cons_self
    have hds := ih fun k' hk' => h k' (List.mem_cons_of_mem k hk')
    show gather (0 * 10 + k) ds < _
    rw [gather_eq, List.length_cons, Nat.pow_succ]
    have hmul : (0 * 10 + k) * 10 ^ ds.length ≤ 9 * 10 ^ ds.length :=
      Nat.mul_le_mul_right _ (by omega)
    omega

/-- The digits of a text, as a fraction. -/
def tail (cs : List Char) : Rat :=
  (gather 0 (digits cs) : Rat) / ((10 ^ (digits cs).length : Nat) : Rat)

theorem tail_nonneg (cs : List Char) : 0 ≤ tail cs := by
  unfold tail
  positivity

theorem tail_lt_one (cs : List Char) : tail cs < 1 := by
  have hpow : (0 : Rat) < ((10 ^ (digits cs).length : Nat) : Rat) := by positivity
  rw [tail, div_lt_one hpow, Nat.cast_lt]
  exact gather_lt fun _ hk => lt_ten_of_mem_digits hk

theorem tail_cons_of_digit (h : digit? c = some k) (cs : List Char) :
    tail (c :: cs) = (k + tail cs) / 10 := by
  have hgather :
      gather 0 (k :: digits cs) = k * 10 ^ (digits cs).length + gather 0 (digits cs) := by
    show gather (0 * 10 + k) (digits cs) = _
    rw [gather_eq, Nat.zero_mul, Nat.zero_add]
  have hpow : ((10 ^ (digits cs).length : Nat) : Rat) ≠ 0 := by positivity
  rw [tail, tail, digits_cons_of_digit h, hgather, List.length_cons, Nat.pow_succ]
  push_cast at hpow ⊢
  field_simp

theorem tail_cons_of_other (h : digit? c = none) (cs : List Char) : tail (c :: cs) = tail cs := by
  rw [tail, digits_cons_of_other h, tail]

theorem tail_dropWhile (cs : List Char) : tail (cs.dropWhile (· = '_')) = tail cs := by
  induction cs with
  | nil => rfl
  | cons c cs ih =>
    by_cases hc : c = '_'
    · rw [List.dropWhile_cons_of_pos (by simpa using hc), ih,
        tail_cons_of_other (digit?_eq_none_iff.mpr (by rw [hc]; rfl))]
    · rw [List.dropWhile_cons_of_neg (by simpa using hc)]

theorem all_dropWhile (cs : List Char) :
    (cs.dropWhile (· = '_')).all isPassed = cs.all isPassed := by
  induction cs with
  | nil => rfl
  | cons c cs ih =>
    by_cases hc : c = '_'
    · have hpassed : isPassed c = true := by simp [isPassed, hc]
      rw [List.dropWhile_cons_of_pos (by simpa using hc), ih, List.all_cons, hpassed, Bool.true_and]
    · rw [List.dropWhile_cons_of_neg (by simpa using hc)]

/-! ## A numeral that is read in part -/

/-- The number that comes of the digits so far and the rest of a text. -/
def remaining (r : Reading) (cs : List Char) : Rat :=
  (gather r.value (digits cs) : Rat) /
    ((10 ^ (r.places + (digits (if r.pointed then cs else fraction cs)).length) : Nat) : Rat)

/-- The rest of a numeral after its point was seen, or a digit. -/
def isRest (pointed started : Bool) (cs : List Char) : Bool :=
  cs.all (fun c => isPassed c || c = '.') && decide (cs.count '.' + pointed.toNat ≤ 1) &&
    (started || (cs.find? (· ≠ '.')).any Char.isDigit)

theorem isBody_eq (cs : List Char) : isBody cs = isRest false false cs := by
  simp [isBody, isRest]

/-- **After the point**, the rest of the digits is a fraction of the last one. -/
theorem remaining_of_pointed (h : r.pointed = true) (cs : List Char) :
    remaining r cs = (r.value + tail cs) / ((10 ^ r.places : Nat) : Rat) := by
  have hpow : ((10 ^ (digits cs).length : Nat) : Rat) ≠ 0 := by positivity
  have hplaces : ((10 ^ r.places : Nat) : Rat) ≠ 0 := by positivity
  rw [remaining, if_pos h, gather_eq, tail, Nat.pow_add]
  push_cast at hpow hplaces ⊢
  field_simp

theorem remaining_nil (r : Reading) :
    remaining r [] = (r.value : Rat) / ((10 ^ r.places : Nat) : Rat) := by
  unfold remaining
  cases r.pointed <;> simp [digits, gather, fraction]

/-- One more digit. -/
theorem remaining_cons_of_digit (hk : digit? c = some k)
    (hplaces : r.pointed = false → r.places = 0) (cs : List Char) :
    remaining r (c :: cs) =
      remaining ⟨r.value * 10 + k, if r.pointed then r.places + 1 else 0, r.pointed, true⟩ cs := by
  have hpoint : c ≠ '.' := by
    rintro rfl
    cases hk
  unfold remaining
  rw [digits_cons_of_digit hk]
  cases hpointed : r.pointed with
  | true =>
    simp only [if_true, digits_cons_of_digit hk, List.length_cons]
    rw [Nat.add_assoc, Nat.add_comm 1]
    rfl
  | false =>
    have hfraction : fraction (c :: cs) = fraction cs :=
      List.dropWhile_cons_of_pos (by simpa using hpoint)
    simp only [Bool.false_eq_true, if_false, hfraction, hplaces hpointed]
    rfl

/-- The point. -/
theorem remaining_cons_point (h : r.pointed = false) (cs : List Char) :
    remaining r ('.' :: cs) = remaining { r with pointed := true } cs := by
  have hfraction : fraction ('.' :: cs) = '.' :: cs := List.dropWhile_cons_of_neg (by decide)
  have hdigits : digits ('.' :: cs) = digits cs := digits_cons_of_other rfl cs
  simp only [remaining, h, Bool.false_eq_true, if_false, if_true, hfraction, hdigits]

/-- An underscore. -/
theorem remaining_cons_mark (r : Reading) (cs : List Char) :
    remaining r ('_' :: cs) = remaining r cs := by
  have hfraction : fraction ('_' :: cs) = fraction cs := List.dropWhile_cons_of_pos (by decide)
  have hdigits : digits ('_' :: cs) = digits cs := digits_cons_of_other rfl cs
  unfold remaining
  rw [hdigits]
  cases r.pointed with
  | true => simp only [if_true, hdigits]
  | false => simp only [Bool.false_eq_true, if_false, hfraction]

/-! ## The form of the rest -/

theorem isRest_nil (pointed started : Bool) : isRest pointed started [] = started := by
  cases pointed <;> cases started <;> rfl

theorem isRest_cons_of_digit (hk : digit? c = some k) (pointed started : Bool) (cs : List Char) :
    isRest pointed started (c :: cs) = isRest pointed true cs := by
  have hdigit := (of_digit?_eq_some hk).1
  have hpoint : c ≠ '.' := by
    rintro rfl
    cases hk
  simp [isRest, isPassed, hdigit, hpoint]

theorem isRest_cons_point (started : Bool) (cs : List Char) :
    isRest false started ('.' :: cs) = isRest true started cs := by
  simp [isRest, isPassed]

theorem isRest_true_cons_point (started : Bool) (cs : List Char) :
    isRest true started ('.' :: cs) = false := by
  simp [isRest]

theorem isRest_cons_mark (pointed started : Bool) (cs : List Char) :
    isRest pointed started ('_' :: cs) = (started && isRest pointed started cs) := by
  cases started <;> simp [isRest, isPassed]

theorem isRest_cons_of_other (hk : digit? c = none) (hpoint : c ≠ '.') (hmark : c ≠ '_')
    (pointed started : Bool) (cs : List Char) : isRest pointed started (c :: cs) = false := by
  have hdigit := digit?_eq_none_iff.mp hk
  simp [isRest, isPassed, hdigit, hpoint, hmark]

/-- After the point and a digit, only digits and underscores follow. -/
theorem isRest_true_true (cs : List Char) : isRest true true cs = cs.all isPassed := by
  induction cs with
  | nil => rfl
  | cons c cs ih =>
    cases hk : digit? c with
    | some k =>
      have hpassed : isPassed c = true := by simp [isPassed, (of_digit?_eq_some hk).1]
      rw [isRest_cons_of_digit hk, ih, List.all_cons, hpassed, Bool.true_and]
    | none =>
      by_cases hpoint : c = '.'
      · subst hpoint
        rw [isRest_true_cons_point]
        rfl
      · by_cases hmark : c = '_'
        · subst hmark
          rw [isRest_cons_mark, ih]
          rfl
        · have hpassed : isPassed c = false := by
            simp [isPassed, digit?_eq_none_iff.mp hk, hmark]
          rw [isRest_cons_of_other hk hpoint hmark, List.all_cons, hpassed, Bool.false_and]

/-! ## What is read -/

/-- **The rest of a fraction is cut off** at the finest scale, or before a digit
that would be too much. -/
theorem cut_tail
    (hfull : places = maxScale ∨ ∃ k, digit? c = some k ∧ coeffBound ≤ value * 10 + k)
    (rest : List Char) : Cut value places (tail (c :: rest)) := by
  refine ⟨tail_nonneg _, tail_lt_one _, hfull.imp_right ?_⟩
  rintro ⟨k, hk, hlarge⟩
  have hle : (coeffBound : Rat) ≤ ((value * 10 + k : Nat) : Rat) := Nat.cast_le.mpr hlarge
  rw [Nat.cast_add, Nat.cast_mul, Nat.cast_ofNat] at hle
  have hrest := tail_nonneg rest
  calc (coeffBound : Rat) ≤ value * 10 + k := hle
    _ ≤ value * 10 + (k + tail rest) := by linarith
    _ = (value + tail (c :: rest)) * 10 := by
      rw [tail_cons_of_digit hk]
      ring

/-- **The digits that do not count are digits**, and the first of them rounds
what does. -/
theorem reads_of_roundBy (hpointed : r.pointed = true) (hvalue : r.value < coeffBound)
    (hfull : r.places = maxScale ∨ ∃ k, digit? c = some k ∧ coeffBound ≤ r.value * 10 + k)
    (h : roundBy negative r c rest = some d) :
    (c :: rest).all isPassed = true ∧ Reads (signed negative (remaining r (c :: rest))) d := by
  have hcut := cut_tail hfull rest
  rw [remaining_of_pointed hpointed]
  unfold roundBy at h
  split at h
  · next hpassed =>
    refine ⟨by rw [List.all_cons, hpassed.1, hpassed.2, Bool.and_self], ?_⟩
    split at h
    · next hup =>
      refine .of_roundUp hcut ?_ hvalue h
      cases hk : digit? c with
      | none => simp [hk] at hup
      | some k =>
        have hfive : (5 : Rat) ≤ k := by
          rw [hk, Option.getD_some] at hup
          exact_mod_cast hup
        have hrest := tail_nonneg rest
        rw [tail_cons_of_digit hk]
        linarith
    · next hdown =>
      refine .of_kept hcut ?_ h
      refine hfull.imp_right ?_
      rintro ⟨k, hk, -⟩
      have hfour : (k : Rat) ≤ 4 := by
        rw [hk, Option.getD_some] at hdown
        exact_mod_cast (by omega : k ≤ 4)
      have hrest := tail_lt_one rest
      rw [tail_cons_of_digit hk]
      linarith
  · cases h

/-- At the finest scale underscores may stand before the digit that rounds. -/
theorem reads_of_roundLast (hpointed : r.pointed = true) (hvalue : r.value < coeffBound)
    (hplaces : r.places = maxScale) (h : roundLast negative r c rest = some d) :
    (c :: rest).all isPassed = true ∧ Reads (signed negative (remaining r (c :: rest))) d := by
  unfold roundLast at h
  split at h
  · next hmark =>
    obtain ⟨rfl, -⟩ := hmark
    have hpassed := all_dropWhile rest
    have htail := tail_dropWhile rest
    rw [remaining_cons_mark, remaining_of_pointed hpointed, ← htail]
    have hall : ('_' :: rest).all isPassed = rest.all isPassed := rfl
    rw [hall, ← hpassed]
    split at h
    · next hnone =>
      rw [hnone]
      obtain ⟨hd, -⟩ := toRat_of_signed? h
      refine ⟨rfl, .of_eq ?_⟩
      have hzero : tail [] = 0 := by simp [tail, digits, gather]
      rw [hd, hzero, add_zero]
    · next c' rest' hsome =>
      rw [hsome, ← remaining_of_pointed hpointed]
      exact reads_of_roundBy hpointed hvalue (.inl hplaces) h
  · exact reads_of_roundBy hpointed hvalue (.inl hplaces) h

/-- **A numeral that is read so far**, in the range of decimals. -/
structure InRange (r : Reading) : Prop where
  value_lt : r.value < coeffBound
  places_le : r.places ≤ maxScale
  places_eq : r.pointed = false → r.places = 0
  started : r.places ≠ 0 → r.started = true

/-- One more digit stays in the range, where there is a place for it. -/
theorem InRange.digit (hr : InRange r) (hplace : ¬ (r.pointed = true ∧ r.places = maxScale))
    (hlt : r.value * 10 + k < coeffBound) :
    InRange ⟨r.value * 10 + k, if r.pointed then r.places + 1 else 0, r.pointed, true⟩ where
  value_lt := hlt
  places_le := by
    have hle := hr.places_le
    show (if r.pointed = true then r.places + 1 else 0) ≤ 28
    split
    · next hpointed =>
      have hne : r.places ≠ 28 := fun heq => hplace ⟨hpointed, heq⟩
      have hle : r.places ≤ 28 := hr.places_le
      omega
    · exact Nat.zero_le _
  places_eq h := by
    show (if r.pointed = true then r.places + 1 else 0) = 0
    rw [if_neg (Bool.not_eq_true _ ▸ h)]
  started _ := rfl

/-- The point stays in the range. -/
theorem InRange.point (hr : InRange r) : InRange { r with pointed := true } where
  value_lt := hr.value_lt
  places_le := hr.places_le
  places_eq h := nomatch h
  started := hr.started

/-- **What is read for the rest of a numeral**, digit by digit. -/
theorem reads_of_readDigits (hr : InRange r) (h : readDigits negative r cs = some d) :
    isRest r.pointed r.started cs = true ∧ Reads (signed negative (remaining r cs)) d := by
  induction cs generalizing r with
  | nil =>
    rw [readDigits] at h
    split at h
    · next hstarted =>
      rw [isRest_nil, remaining_nil]
      exact ⟨hstarted, .of_eq (toRat_of_signed? h).1⟩
    · cases h
  | cons c rest ih =>
    rw [readDigits] at h
    split at h
    · next hlast =>
      obtain ⟨hpointed, hfinest⟩ := hlast
      obtain ⟨hpassed, hreads⟩ := reads_of_roundLast hpointed hr.value_lt hfinest h
      have hstarted : r.started = true := hr.started (by rw [hfinest]; decide)
      rw [hpointed, hstarted, isRest_true_true]
      exact ⟨hpassed, hreads⟩
    · next hplace =>
      split at h
      · next k hk =>
        simp only at h
        split at h
        · next hlt =>
          rw [isRest_cons_of_digit hk, remaining_cons_of_digit hk hr.places_eq]
          exact ih (hr.digit hplace hlt) h
        · next hlarge =>
          split at h
          · next hpointed =>
            obtain ⟨hpassed, hreads⟩ :=
              reads_of_roundBy hpointed hr.value_lt (.inr ⟨k, hk, not_lt.mp hlarge⟩) h
            rw [List.all_cons, Bool.and_eq_true] at hpassed
            rw [isRest_cons_of_digit hk, hpointed, isRest_true_true]
            exact ⟨hpassed.2, hreads⟩
          · cases h
      · next hk =>
        split at h
        · next hpoint =>
          obtain ⟨rfl, hpointed⟩ := hpoint
          rw [Bool.not_eq_true] at hpointed
          rw [remaining_cons_point hpointed, hpointed, isRest_cons_point]
          exact ih hr.point h
        · split at h
          · next hmark =>
            obtain ⟨rfl, hstarted⟩ := hmark
            have hrest := ih hr h
            rw [hstarted] at hrest
            rw [remaining_cons_mark, isRest_cons_mark, hstarted, Bool.true_and]
            exact hrest
          · cases h

/-! ## What is not refused -/

/-- **Zeros that are cut off** round nothing. -/
theorem exists_roundBy (negative : Bool) (hr : InRange r) (hpointed : r.pointed = true)
    (hfull : r.places = maxScale ∨ ∃ k, digit? c = some k ∧ coeffBound ≤ r.value * 10 + k)
    (hpassed : (c :: rest).all isPassed = true)
    (hx : Representable (remaining r (c :: rest))) : ∃ d, roundBy negative r c rest = some d := by
  rw [remaining_of_pointed hpointed] at hx
  have hzero := (cut_tail hfull rest).eq_zero hx
  have hdown : ¬ 5 ≤ (digit? c).getD 0 := by
    cases hk : digit? c with
    | none => simp
    | some k =>
      have hrest := tail_nonneg rest
      rw [tail_cons_of_digit hk] at hzero
      have hk' : (k : Rat) ≤ (0 : Nat) := by
        rw [Nat.cast_zero]
        linarith
      have hle : k ≤ 0 := Nat.cast_le.mp hk'
      rw [Option.getD_some]
      omega
  rw [List.all_cons, Bool.and_eq_true] at hpassed
  rw [roundBy, if_pos hpassed, if_neg hdown]
  exact exists_signed? negative hr.value_lt hr.places_le

theorem exists_roundLast (negative : Bool) (hr : InRange r) (hpointed : r.pointed = true)
    (hplaces : r.places = maxScale) (hpassed : (c :: rest).all isPassed = true)
    (hx : Representable (remaining r (c :: rest))) : ∃ d, roundLast negative r c rest = some d := by
  unfold roundLast
  split
  · next hmark =>
    obtain ⟨rfl, -⟩ := hmark
    split
    · exact exists_signed? negative hr.value_lt hr.places_le
    · next c' rest' hsome =>
      refine exists_roundBy negative hr hpointed (.inl hplaces) ?_ ?_
      · rw [← hsome, all_dropWhile]
        exact hpassed
      · rw [remaining_of_pointed hpointed, ← hsome, tail_dropWhile, ← remaining_of_pointed hpointed,
          ← remaining_cons_mark]
        exact hx
  · exact exists_roundBy negative hr hpointed (.inl hplaces) hpassed hx

/-- The digits so far are not above the number. -/
theorem le_remaining (r : Reading) (cs : List Char) :
    (r.value : Rat) / ((10 ^ r.places : Nat) : Rat) ≤ remaining r cs := by
  have hlength : (digits (if r.pointed then cs else fraction cs)).length ≤ (digits cs).length := by
    split
    · exact le_rfl
    · exact ((List.dropWhile_sublist _).filterMap _).length_le
  have hpow : (0 : Rat) < ((10 ^ r.places : Nat) : Rat) := by positivity
  have hlong : (0 : Rat) < ((10 ^ (r.places +
      (digits (if r.pointed then cs else fraction cs)).length) : Nat) : Rat) := by positivity
  rw [remaining, div_le_div_iff₀ hpow hlong, ← Nat.cast_mul, ← Nat.cast_mul, Nat.cast_le, gather_eq,
    Nat.pow_add]
  calc _ ≤ r.value * (10 ^ r.places * 10 ^ (digits cs).length) :=
        Nat.mul_le_mul_left _ (Nat.mul_le_mul_left _ (Nat.pow_le_pow_right (by decide) hlength))
    _ = r.value * 10 ^ (digits cs).length * 10 ^ r.places := by ring
    _ ≤ _ := Nat.mul_le_mul_right _ (Nat.le_add_right _ _)

/-- Where the point is still ahead, one more digit of a decimal has room: the
integer part alone is no more than the number. -/
theorem whole_lt_of_representable (hr : InRange r) (hk : digit? c = some k)
    (hpointed : ¬ r.pointed = true) (hx : Representable (remaining r (c :: cs))) :
    r.value * 10 + k < coeffBound := by
  rw [remaining_cons_of_digit hk hr.places_eq] at hx
  have hle := le_remaining
    ⟨r.value * 10 + k, if r.pointed then r.places + 1 else 0, r.pointed, true⟩ cs
  have habs := (le_abs_self _).trans hx.abs_le
  simp only [if_neg hpointed, Nat.pow_zero, Nat.cast_one, div_one] at hle habs
  have hsmall : r.value * 10 + k ≤ maxCoeff := Nat.cast_le.mp (hle.trans habs)
  have hbound : maxCoeff < coeffBound := by decide
  omega

/-- **The rest of a numeral that stands for a decimal** is read. -/
theorem exists_readDigits (negative : Bool) (hr : InRange r)
    (hform : isRest r.pointed r.started cs = true) (hx : Representable (remaining r cs)) :
    ∃ d, readDigits negative r cs = some d := by
  induction cs generalizing r with
  | nil =>
    rw [isRest_nil] at hform
    rw [readDigits, if_pos hform]
    exact exists_signed? negative hr.value_lt hr.places_le
  | cons c rest ih =>
    rw [readDigits]
    split
    · next hlast =>
      obtain ⟨hpointed, hfinest⟩ := hlast
      have hstarted : r.started = true := hr.started (by rw [hfinest]; decide)
      rw [hpointed, hstarted, isRest_true_true] at hform
      exact exists_roundLast negative hr hpointed hfinest hform hx
    · next hplace =>
      split
      · next k hk =>
        rw [isRest_cons_of_digit hk] at hform
        simp only
        split
        · next hlt =>
          rw [remaining_cons_of_digit hk hr.places_eq] at hx
          exact ih (hr.digit hplace hlt) hform hx
        · next hlarge =>
          split
          · next hpointed =>
            rw [hpointed, isRest_true_true] at hform
            have hpassed : isPassed c = true := by simp [isPassed, (of_digit?_eq_some hk).1]
            exact exists_roundBy negative hr hpointed (.inr ⟨k, hk, not_lt.mp hlarge⟩)
              (by rw [List.all_cons, hpassed, hform, Bool.true_and]) hx
          · next hpointed => exact absurd (whole_lt_of_representable hr hk hpointed hx) hlarge
      · next hk =>
        by_cases hpoint : c = '.'
        · subst hpoint
          cases hpointed : r.pointed with
          | true =>
            rw [hpointed, isRest_true_cons_point] at hform
            cases hform
          | false =>
            rw [hpointed, isRest_cons_point] at hform
            rw [remaining_cons_point hpointed] at hx
            rw [if_pos ⟨rfl, Bool.false_ne_true⟩]
            exact ih hr.point hform hx
        · rw [if_neg fun h => hpoint h.1]
          by_cases hmark : c = '_'
          · subst hmark
            rw [isRest_cons_mark, Bool.and_eq_true] at hform
            rw [remaining_cons_mark] at hx
            rw [if_pos ⟨rfl, hform.1⟩]
            exact ih hr hform.2 hx
          · rw [isRest_cons_of_other hk hpoint hmark] at hform
            cases hform

/-! ## Plain numerals -/

/-- Nothing was read yet. -/
theorem inRange_start : InRange ⟨0, 0, false, false⟩ where
  value_lt := by decide
  places_le := by decide
  places_eq _ := rfl
  started h := absurd rfl h

theorem remaining_start (cs : List Char) : remaining ⟨0, 0, false, false⟩ cs = magnitude cs := by
  simp [remaining, magnitude]

theorem ofPlain?_eq (cs : List Char) :
    ofPlain? cs = readDigits (unsign cs).1 ⟨0, 0, false, false⟩ (unsign cs).2 := by
  unfold ofPlain?
  split
  · rfl
  · rfl
  · next hminus hplus =>
    have hunsign : unsign cs = (false, cs) := by
      unfold unsign
      split
      · next rest => exact absurd rfl (hminus rest)
      · next rest => exact absurd rfl (hplus rest)
      · rfl
    rw [hunsign]

/-- **Only numerals are read**, and faithfully. -/
theorem reads_of_ofPlain? (h : ofPlain? cs = some d) : ∃ q, plain? cs = some q ∧ Reads q d := by
  rw [ofPlain?_eq] at h
  obtain ⟨hform, hreads⟩ := reads_of_readDigits inRange_start h
  rw [remaining_start] at hreads
  exact ⟨_, if_pos ((isBody_eq _).trans hform), hreads⟩

/-- **All numerals that stand for a decimal are read**, exactly. -/
theorem exists_ofPlain? (h : plain? cs = some q) (hq : Representable q) :
    ∃ d, ofPlain? cs = some d ∧ d.toRat = q := by
  have hplain := h
  unfold plain? at h
  split at h
  · next hbody =>
    cases h
    rw [representable_signed, ← remaining_start] at hq
    rw [isBody_eq] at hbody
    obtain ⟨d, hd⟩ := exists_readDigits (unsign cs).1 inRange_start hbody hq
    rw [← ofPlain?_eq] at hd
    obtain ⟨q', hq', hreads⟩ := reads_of_ofPlain? hd
    rw [hplain, Option.some.injEq] at hq'
    refine ⟨d, hd, ?_⟩
    rw [remaining_start] at hq
    rw [hq']
    exact hreads.exact (hq' ▸ representable_signed.mpr hq)
  · cases h

end Numeral

end ChainLedger
