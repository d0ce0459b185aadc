import ChainLedger.Decimal.Basic
import ChainLedger.Trap

/-!
# Sums, differences, products and quotients of decimals

An exact result that does not fit is brought into range by dropping the
fewest fraction digits, rounding half to even (`Decimal.fit?`); where that
does not help, there is no result. A zero operand of a sum or a difference
leaves the other one as it is, and a product with zero is `0`.

A quotient is developed digit by digit as far as the range allows, and then
loses some of the zeros at its end (`Decimal.Quotient`).
-/

namespace ChainLedger

-- A power is the one of the core library, whatever other structure is in scope.
attribute [local instance (2000)] instPowNat

namespace Decimal

/-- **Half to even**: the integer nearest to `n / d`, and of two as near the
even one. -/
def roundHalfEven (n d : Nat) : Nat :=
  let q := n / d
  let r := n % d
  if 2 * r < d then q
  else if 2 * r = d then (if q % 2 = 0 then q else q + 1)
  else q + 1

/-- An integer with the sign of `c` and the magnitude `m`. -/
def withSign (c : Int) (m : Nat) : Int :=
  if c < 0 then -(m : Int) else m

/-- The integer nearest to `c / 10 ^ k`. -/
def dropDigits (c : Int) (k : Nat) : Int :=
  withSign c (roundHalfEven c.natAbs (10 ^ k))

/-- Drops `k` digits, or more while the result does not fit and there are
fraction digits left; the first argument is how many more may go. -/
def fitFrom (c : Int) (scale : Nat) : Nat → Nat → Option Decimal
  | 0, k => ofParts? (dropDigits c k) (scale - k)
  | n + 1, k =>
    match ofParts? (dropDigits c k) (scale - k) with
    | some d => some d
    | none => fitFrom c scale n (k + 1)

/-- **The nearest decimal with the most digits kept** to `c / 10 ^ scale`:
the fewest fraction digits are dropped. None when even the integer part is
out of range. -/
def fit? (c : Int) (scale : Nat) : Option Decimal :=
  fitFrom c scale (scale - (scale - maxScale)) (scale - maxScale)

/-- The coefficient at a larger scale. -/
def coeffAt (d : Decimal) (scale : Nat) : Int :=
  d.coeff * 10 ^ (scale - d.scale)

/-- The number with the other sign; a zero stays as it is. -/
def neg (d : Decimal) : Decimal :=
  if d.isZero then d else { d with negative := !d.negative }

theorem coeff_neg (d : Decimal) : d.neg.coeff = -d.coeff := by
  unfold neg
  split
  · have h : d.coeff = 0 := by rw [coeff_eq_zero_iff]; simpa [isZero] using ‹d.isZero = true›
    omega
  · unfold coeff
    cases d.negative <;> simp

@[simp] theorem scale_neg (d : Decimal) : d.neg.scale = d.scale := by
  unfold neg; split <;> rfl

/-- The sum, if it is in range. -/
def add? (a b : Decimal) : Option Decimal :=
  if a.isZero then some b
  else if b.isZero then some a
  else
    let s := max a.scale b.scale
    fit? (a.coeffAt s + b.coeffAt s) s

/-- The difference, if it is in range. -/
def sub? (a b : Decimal) : Option Decimal :=
  add? a b.neg

/-- The product, if it is in range. -/
def mul? (a b : Decimal) : Option Decimal :=
  if a.isZero || b.isZero then some zero
  else fit? (a.coeff * b.coeff) (a.scale + b.scale)

/-- The difference where it is taken to exist. -/
def sub (a b : Decimal) : Except Trap Decimal :=
  match sub? a b with
  | some d => .ok d
  | none => .error .subtraction

/-- The product where it is taken to exist. -/
def mul (a b : Decimal) : Except Trap Decimal :=
  match mul? a b with
  | some d => .ok d
  | none => .error .multiplication

/-! ## Quotients -/

/-- A quotient under way: `(digits + rest / divisor) / 10 ^ scale`. The
scale may still be negative. -/
structure Quotient where
  digits : Nat
  rest : Nat
  scale : Int

/-- The greatest power of ten, up to the ninth, that the digits can be
multiplied by within the range. -/
def growth (digits : Nat) : Nat → Nat
  | 0 => 0
  | n + 1 => if digits * 10 ^ (n + 1) < coeffBound then n + 1 else growth digits n

/-- Digits that reached the bound on a coefficient lose their last digit, rounded
half to even; `more` says that something is left below them. -/
def dropLast (digits : Nat) (more : Bool) (scale : Int) : Option (Nat × Int) :=
  if scale ≤ 0 then none
  else
    let q := digits / 10
    let r := digits % 10
    let up := 5 < r ∨ (r = 5 ∧ (more ∨ q % 2 = 1))
    some (if up then q + 1 else q, scale - 1)

/-- The last digit rounded by the rest, half to even. -/
def roundRest (q : Quotient) (divisor : Nat) : Option (Nat × Int) :=
  let up := divisor < 2 * q.rest ∨ (2 * q.rest = divisor ∧ q.digits % 2 = 1)
  if up then
    if q.digits + 1 < coeffBound then some (q.digits + 1, q.scale)
    else dropLast (q.digits + 1) true q.scale
  else some (q.digits, q.scale)

/-- **The digits of a quotient.** While there is a rest, as many digits as
possible are added, nine at most at a time; when no more fit the last one is
rounded. A negative scale is brought up to zero. The first argument bounds
the number of rounds. -/
def develop (divisor : Nat) : Nat → Quotient → Option (Nat × Int)
  | 0, q => some (q.digits, q.scale)
  | n + 1, q =>
    if q.rest = 0 ∧ 0 ≤ q.scale then some (q.digits, q.scale)
    else
      let room := if q.rest = 0 then min 9 (-q.scale).toNat else min 9 (28 - q.scale).toNat
      let p := if q.rest = 0 then room else growth q.digits room
      if q.rest ≠ 0 ∧ p = 0 then
        if q.scale < 0 then none else roundRest q divisor
      else if coeffBound ≤ q.digits * 10 ^ p then none
      else
        let rest := q.rest * 10 ^ p
        let digits := q.digits * 10 ^ p + rest / divisor
        let scale := q.scale + p
        if digits < coeffBound then develop divisor n ⟨digits, rest % divisor, scale⟩
        else dropLast digits (rest % divisor ≠ 0) scale

/-- Removes `k` zeros, if the scale allows it, the low bits promise it and
the zeros are there. -/
def dropZeros (k bits : Nat) (q : Nat × Nat) : Nat × Nat :=
  if k ≤ q.2 ∧ q.1 % 2 ^ bits = 0 ∧ q.1 % 10 ^ k = 0 then (q.1 / 10 ^ k, q.2 - k) else q

/-- Removes eight zeros again and again, while the low 32 bits are zero. -/
def dropEights : Nat → Nat × Nat → Nat × Nat
  | 0, q => q
  | n + 1, q =>
    let q' := dropZeros 8 32 q
    if q'.2 = q.2 then q else dropEights n q'

/-- **Zeros at the end of a developed quotient** go by eights, and then once
each by four, by two and by one; not all of them need go. -/
def dropQuotientZeros (q : Nat × Nat) : Nat × Nat :=
  dropZeros 1 1 (dropZeros 2 2 (dropZeros 4 4 (dropEights 4 q)))

/-- The quotient where it is taken to exist. -/
def div (a b : Decimal) : Except Trap Decimal :=
  if b.isZero then .error .divisionByZero
  else if a.isZero then .ok zero
  else
    let divisor := b.digits
    let start : Quotient := ⟨a.digits / divisor, a.digits % divisor, (a.scale : Int) - b.scale⟩
    match develop divisor 64 start with
    | none => .error .division
    | some (digits, scale) =>
      let q := if start.rest = 0 then (digits, scale.toNat)
        else dropQuotientZeros (digits, scale.toNat)
      let sign : Int := if a.negative = b.negative then 1 else -1
      match ofParts? (sign * q.1) q.2 with
      | some d => .ok d
      | none => .error .division

end Decimal

end ChainLedger
