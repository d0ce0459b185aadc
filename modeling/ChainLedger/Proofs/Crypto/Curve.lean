import ChainLedger.Proofs.Crypto.Prime
import Mathlib.AlgebraicGeometry.EllipticCurve.Affine.Point
import Mathlib.FieldTheory.Finite.Basic
import Mathlib.Tactic.FieldSimp
import Mathlib.Tactic.LinearCombination

/-!
# The group of the curve

The points of `y² = x³ + 7` are a group. Projective coordinates denote one of
them (`Point.Denotes`), infinity or the point that they stand for
(`Point.At`). What is computed in coordinates is the tangent and the chord
(`Point.At.double`, `Point.At.add`), and so the law of the group:
`denotes_double`, `denotes_add`, `denotes_multiply`. The generator has the order
that is given for it (`addOrderOf_base`).
-/

namespace ChainLedger.Secp256k1

instance : Fact fieldSize.Prime := ⟨prime_fieldSize⟩

/-- The field of the curve. -/
abbrev Element := ZMod fieldSize

/-! ## The field -/

@[simp] theorem cast_mod (a : ℕ) : ((a % fieldSize : ℕ) : Element) = a :=
  ZMod.natCast_mod a fieldSize

@[simp] theorem cast_minus (a b : ℕ) : ((minus a b : ℕ) : Element) = a - b := by
  have hle : b % fieldSize ≤ fieldSize := (Nat.mod_lt b (by decide)).le
  rw [minus, cast_mod, Nat.cast_add, Nat.cast_sub hle, cast_mod, ZMod.natCast_self]
  ring

theorem mod_eq_val {a : ℕ} {x : Element} (h : (a : Element) = x) : a % fieldSize = x.val := by
  rw [← h, ZMod.val_natCast]

theorem cast_ne_zero {n : ℕ} (h : ¬ fieldSize ∣ n) : (n : Element) ≠ 0 :=
  (ZMod.natCast_eq_zero_iff n fieldSize).not.mpr h

theorem element_two_ne_zero : (2 : Element) ≠ 0 := by
  simpa using cast_ne_zero (n := 2) (by decide)

/-! ## The curve -/

/-- **The curve** `y² = x³ + 7`. -/
def curve : WeierstrassCurve.Affine Element := ⟨0, 0, 0, 0, 7⟩

/-- A point of the curve, or the point at infinity. -/
abbrev CurvePoint := curve.Point

theorem discriminant_ne_zero : WeierstrassCurve.Δ curve ≠ 0 := by
  have hvalue : WeierstrassCurve.Δ curve = -((21168 : ℕ) : Element) := by
    simp only [WeierstrassCurve.Δ, WeierstrassCurve.b₂, WeierstrassCurve.b₄, WeierstrassCurve.b₆,
      WeierstrassCurve.b₈, curve]
    push_cast
    ring
  rw [hvalue]
  exact neg_ne_zero.mpr (cast_ne_zero (by decide))

/-- The coordinates that a point may have. -/
theorem nonsingular_iff {x y : Element} : curve.Nonsingular x y ↔ y ^ 2 = x ^ 3 + 7 := by
  rw [← WeierstrassCurve.Affine.equation_iff_nonsingular_of_Δ_ne_zero discriminant_ne_zero,
    WeierstrassCurve.Affine.equation_iff]
  simp [curve]

@[simp] theorem negY_eq (x y : Element) : curve.negY x y = -y := by
  simp [WeierstrassCurve.Affine.negY, curve]

theorem addX_eq (x x' ℓ : Element) : curve.addX x x' ℓ = ℓ ^ 2 - x - x' := by
  simp [WeierstrassCurve.Affine.addX, curve]

theorem addY_eq (x x' y ℓ : Element) :
    curve.addY x x' y ℓ = ℓ * (x - curve.addX x x' ℓ) - y := by
  rw [WeierstrassCurve.Affine.addY, WeierstrassCurve.Affine.negAddY, negY_eq]
  ring

/-- Two points above one place have one height, or opposite heights. -/
theorem eq_or_eq_neg {x y y' : Element} (h : curve.Nonsingular x y) (h' : curve.Nonsingular x y') :
    y = y' ∨ y = -y' := by
  rw [← sq_eq_sq_iff_eq_or_eq_neg, nonsingular_iff.mp h, nonsingular_iff.mp h']

/-- A point with a height is not its own negative. -/
theorem ne_negY {x y : Element} (hy : y ≠ 0) : y ≠ curve.negY x y := by
  rw [negY_eq]
  intro h
  exact mul_ne_zero element_two_ne_zero hy (by linear_combination h)

theorem slope_self {x y : Element} (hy : y ≠ 0) :
    curve.slope x x y y = 3 * x ^ 2 / (2 * y) := by
  rw [WeierstrassCurve.Affine.slope_of_Y_ne rfl (ne_negY hy), negY_eq]
  simp only [curve]
  ring_nf

/-! ## Projective coordinates -/

/-- Projective coordinates stand for affine ones, which are their quotients. -/
structure Point.At (p : Point) (x y : Element) : Prop where
  z_ne_zero : (p.z : Element) ≠ 0
  x_eq : (p.x : Element) = x * p.z ^ 2
  y_eq : (p.y : Element) = y * p.z ^ 3

/-- **Projective coordinates denote a point of the curve**: infinity if the last
one is zero, and otherwise the point that they stand for. -/
inductive Point.Denotes (p : Point) : CurvePoint → Prop
  | infinity (hz : p.z = 0) : Denotes p 0
  | finite {x y : Element} (h : curve.Nonsingular x y) (hat : p.At x y) : Denotes p (.some x y h)

variable {p q : Point} {P Q : CurvePoint} {x y x' y' : Element}

theorem ne_zero_of_cast {n : ℕ} (h : (n : Element) ≠ 0) : n ≠ 0 := by
  rintro rfl
  exact h Nat.cast_zero

/-- Numbers agree in the field if what they stand for agrees, once scaled. -/
theorem mod_eq_iff {a b : ℕ} {u v c : Element} (hc : c ≠ 0) (ha : (a : Element) = u * c)
    (hb : (b : Element) = v * c) : a % fieldSize = b % fieldSize ↔ u = v := by
  rw [← ZMod.natCast_eq_natCast_iff', ha, hb, mul_left_inj' hc]

namespace Point.At

/-- **The tangent**: the coordinates of a sum of a point with itself. -/
theorem double (h : p.At x y) (hy : y ≠ 0) :
    (double p).At (curve.addX x x (curve.slope x x y y))
      (curve.addY x x y (curve.slope x x y y)) := by
  have hz := h.z_ne_zero
  have hpy : (p.y : Element) ≠ 0 := by
    rw [h.y_eq]
    exact mul_ne_zero hy (pow_ne_zero 3 hz)
  rw [Secp256k1.double, if_neg (not_or.mpr ⟨ne_zero_of_cast hz, ne_zero_of_cast hpy⟩)]
  refine ⟨?_, ?_, ?_⟩
  · simp only [cast_mod, Nat.cast_mul, Nat.cast_ofNat]
    exact mul_ne_zero (mul_ne_zero element_two_ne_zero hpy) hz
  · simp only [cast_mod, cast_minus, Nat.cast_mul, Nat.cast_ofNat, addX_eq, slope_self hy,
      h.x_eq, h.y_eq]
    field_simp [element_two_ne_zero]
    ring
  · simp only [cast_mod, cast_minus, Nat.cast_mul, Nat.cast_ofNat, addX_eq, addY_eq,
      slope_self hy, h.x_eq, h.y_eq]
    field_simp [element_two_ne_zero]
    ring

/-- A point with no height has a vertical tangent. -/
theorem double_z (h : p.At x 0) : (Secp256k1.double p).z = 0 := by
  unfold Secp256k1.double
  split
  · rfl
  · have hpy : (p.y : Element) = 0 := by rw [h.y_eq, zero_mul]
    have hdvd : fieldSize ∣ p.y := (ZMod.natCast_eq_zero_iff _ _).mp hpy
    exact Nat.mod_eq_zero_of_dvd ((hdvd.mul_left 2).mul_right p.z)

/-- Two points are told to have one first coordinate if they do. -/
theorem x_iff (h : p.At x y) (h' : q.At x' y') :
    p.x * (q.z * q.z % fieldSize) % fieldSize = q.x * (p.z * p.z % fieldSize) % fieldSize ↔
      x = x' := by
  have hz := h.z_ne_zero
  have hz' := h'.z_ne_zero
  refine mod_eq_iff (c := p.z ^ 2 * q.z ^ 2) (by positivity) ?_ ?_
  · simp only [cast_mod, Nat.cast_mul, h.x_eq]
    ring
  · simp only [cast_mod, Nat.cast_mul, h'.x_eq]
    ring

/-- Two points are told to have one height if they do. -/
theorem y_iff (h : p.At x y) (h' : q.At x' y') :
    p.y * (q.z * q.z % fieldSize) * q.z % fieldSize =
      q.y * (p.z * p.z % fieldSize) * p.z % fieldSize ↔ y = y' := by
  have hz := h.z_ne_zero
  have hz' := h'.z_ne_zero
  refine mod_eq_iff (c := p.z ^ 3 * q.z ^ 3) (by positivity) ?_ ?_
  · simp only [cast_mod, Nat.cast_mul, h.y_eq]
    ring
  · simp only [cast_mod, Nat.cast_mul, h'.y_eq]
    ring

/-- The sum of two points above one place: the double, or infinity. -/
theorem add_eq (h : p.At x y) (h' : q.At x' y') (hx : x = x') :
    add p q = if y = y' then Secp256k1.double p else infinity := by
  simp only [add, if_neg (ne_zero_of_cast h.z_ne_zero), if_neg (ne_zero_of_cast h'.z_ne_zero),
    x_iff h h', y_iff h h', if_pos hx]

/-- **The chord**: the coordinates of a sum of two points that are apart. -/
theorem add (h : p.At x y) (h' : q.At x' y') (hne : x ≠ x') :
    (add p q).At (curve.addX x x' (curve.slope x x' y y'))
      (curve.addY x x' y (curve.slope x x' y y')) := by
  have hz := h.z_ne_zero
  have hz' := h'.z_ne_zero
  have hsub : x - x' ≠ 0 := sub_ne_zero.mpr hne
  have hslope : curve.slope x x' y y' = (y - y') / (x - x') :=
    WeierstrassCurve.Affine.slope_of_X_ne hne
  simp only [Secp256k1.add, if_neg (ne_zero_of_cast hz), if_neg (ne_zero_of_cast hz'), x_iff h h',
    if_neg hne]
  refine ⟨?_, ?_, ?_⟩
  · have hz₃ : (x - x') * -(p.z ^ 3 * q.z ^ 3 : Element) ≠ 0 :=
      mul_ne_zero hsub (neg_ne_zero.mpr (by positivity))
    simp only [cast_mod, cast_minus, Nat.cast_mul, h.x_eq, h'.x_eq]
    exact ne_of_eq_of_ne (by ring) hz₃
  · simp only [cast_mod, cast_minus, Nat.cast_mul, Nat.cast_add, Nat.cast_ofNat, addX_eq, hslope,
      h.x_eq, h.y_eq, h'.x_eq, h'.y_eq]
    field_simp
    ring
  · simp only [cast_mod, cast_minus, Nat.cast_mul, Nat.cast_add, Nat.cast_ofNat, addX_eq, addY_eq,
      hslope, h.x_eq, h.y_eq, h'.x_eq, h'.y_eq]
    field_simp
    ring

end Point.At

/-! ## The law of the group -/

/-- **Doubling is adding a point to itself.** -/
theorem denotes_double (h : p.Denotes P) : (double p).Denotes (P + P) := by
  cases h with
  | infinity hz =>
    rw [double, if_pos (.inl hz), add_zero]
    exact .infinity rfl
  | @finite x y hxy hat =>
    by_cases hy : y = 0
    · -- A point with no height is its own negative.
      subst hy
      rw [WeierstrassCurve.Affine.Point.add_self_of_Y_eq (by rw [negY_eq, neg_zero])]
      exact .infinity hat.double_z
    · rw [WeierstrassCurve.Affine.Point.add_self_of_Y_ne (ne_negY hy)]
      exact .finite _ (hat.double hy)

/-- **The sum in coordinates is the sum of the points.** -/
theorem denotes_add (hp : p.Denotes P) (hq : q.Denotes Q) : (add p q).Denotes (P + Q) := by
  cases hp with
  | infinity hz =>
    rw [add, if_pos hz, zero_add]
    exact hq
  | @finite x y hxy hat =>
    cases hq with
    | infinity hz' =>
      rw [add, if_neg (ne_zero_of_cast hat.z_ne_zero), if_pos hz', add_zero]
      exact .finite hxy hat
    | @finite x' y' hxy' hat' =>
      by_cases hx : x = x'
      · rw [hat.add_eq hat' hx]
        subst hx
        by_cases hy : y = y'
        · subst hy
          rw [if_pos rfl]
          exact denotes_double (.finite hxy hat)
        · -- Of two points above one place, each is the negative of the other.
          have hopp : y = curve.negY x y' := by
            rw [negY_eq]
            exact (eq_or_eq_neg hxy hxy').resolve_left hy
          rw [if_neg hy, WeierstrassCurve.Affine.Point.add_of_Y_eq rfl hopp]
          exact .infinity rfl
      · rw [WeierstrassCurve.Affine.Point.add_of_X_ne hx]
        exact .finite _ (hat.add hat' hx)

/-- **A multiple in coordinates is the multiple of the point.** -/
theorem denotes_multiply {n k : ℕ} (hk : k < 2 ^ n) (h : p.Denotes P) :
    (multiply p n k).Denotes (k • P) := by
  induction n generalizing k with
  | zero =>
    obtain rfl : k = 0 := Nat.lt_one_iff.mp hk
    rw [zero_nsmul]
    exact .infinity rfl
  | succ n ih =>
    have hhalf : k / 2 < 2 ^ n := Nat.div_lt_of_lt_mul (pow_succ' 2 n ▸ hk)
    have hsplit : k • P = (k / 2) • P + (k / 2) • P + (k % 2) • P := by
      rw [← add_nsmul, ← add_nsmul]
      congr 1
      omega
    rw [multiply, hsplit]
    rcases Nat.mod_two_eq_zero_or_one k with hbit | hbit
    · rw [if_neg (by omega), hbit, zero_nsmul, add_zero]
      exact denotes_double (ih hhalf)
    · rw [if_pos hbit, hbit, one_nsmul]
      exact denotes_add (denotes_double (ih hhalf)) h

/-- Coordinates with nothing to divide by denote infinity. -/
theorem Point.Denotes.eq_zero (h : p.Denotes P) (hz : p.z = 0) : P = 0 := by
  cases h with
  | infinity => rfl
  | finite _ hat => exact absurd hz (ne_zero_of_cast hat.z_ne_zero)

/-! ## Inverses -/

/-- **The inverse is the inverse of the field**, for a prime that a word holds. -/
theorem cast_inverse {m : ℕ} [Fact m.Prime] (htwo : 2 < m) (hm : m < 2 ^ 256) (a : ℕ) :
    ((inverse m a : ℕ) : ZMod m) = (a : ZMod m)⁻¹ := by
  rw [inverse, powMod_eq _ (by omega : m - 2 < 2 ^ 256), ZMod.natCast_mod, Nat.cast_pow,
    ZMod.natCast_mod]
  by_cases ha : (a : ZMod m) = 0
  · rw [ha, inv_zero, zero_pow (by omega)]
  · refine eq_inv_of_mul_eq_one_left ?_
    rw [← pow_succ, show m - 2 + 1 = m - 1 by omega, ZMod.pow_card_sub_one_eq_one ha]

/-- **The affine coordinates are those of the point.** -/
theorem affine_eq {h : curve.Nonsingular x y} (hp : p.Denotes (.some x y h)) :
    p.affine = (x.val, y.val) := by
  cases hp with
  | finite _ hat =>
    have hz := hat.z_ne_zero
    have hinv := cast_inverse (m := fieldSize) (by decide) (by decide) p.z
    refine Prod.ext (mod_eq_val ?_) (mod_eq_val ?_)
    · simp only [cast_mod, Nat.cast_mul, hinv, hat.x_eq]
      field_simp
    · simp only [cast_mod, Nat.cast_mul, hinv, hat.y_eq]
      field_simp

/-! ## The generator -/

theorem nonsingular_generator :
    curve.Nonsingular (generator.x : Element) (generator.y : Element) := by
  rw [nonsingular_iff]
  have h : (generator.y ^ 2 : ℕ) % fieldSize = (generator.x ^ 3 + 7 : ℕ) % fieldSize := by
    decide +kernel
  exact_mod_cast (ZMod.natCast_eq_natCast_iff' _ _ _).mpr h

/-- The generator, as a point of the curve. -/
def base : CurvePoint := .some _ _ nonsingular_generator

theorem denotes_base : generator.Denotes base :=
  .finite nonsingular_generator
    ⟨by simp [generator], by simp [generator], by simp [generator]⟩

/-- **The generator has the order that is given for it.** -/
theorem addOrderOf_base : addOrderOf base = order := by
  have : Fact order.Prime := ⟨prime_order⟩
  refine addOrderOf_eq_prime ?_ (WeierstrassCurve.Affine.Point.some_ne_zero _)
  exact (denotes_multiply (by decide : order < 2 ^ 256) denotes_base).eq_zero (by decide +kernel)

/-- Multiples of the generator agree if the factors do, up to the order. -/
theorem nsmul_base_eq_iff {m n : ℕ} : m • base = n • base ↔ m % order = n % order := by
  rw [nsmul_eq_nsmul_iff_modEq, addOrderOf_base, Nat.ModEq]

theorem nsmul_base_ne_zero {n : ℕ} (hpos : 0 < n) (hlt : n < order) : n • base ≠ 0 := by
  rw [← zero_nsmul base, ne_eq, nsmul_base_eq_iff, Nat.zero_mod, Nat.mod_eq_of_lt hlt]
  omega

end ChainLedger.Secp256k1
