/-!
# Decimals of 96 bits

A `Decimal` is a sign, an integer below `2 ^ 96` and a power of ten: it
stands for `±digits / 10 ^ scale`, with a scale of at most 28. Several
decimals may stand for one number, `85` and `85.00`, or `0` and `-0`; the
scale and the sign of a zero are kept, because they are printed, and
comparison looks at the number alone. `Decimal.toRat` is that number, and
`Decimal.coeff` the integer with its sign.
-/

namespace ChainLedger

-- A power is the one of the core library, whatever other structure is in scope.
attribute [local instance (2000)] instPowNat

/-- The number `±digits / 10 ^ scale`, with all three parts kept. -/
structure Decimal where
  negative : Bool
  digits : Nat
  scale : Nat
  digits_lt : digits < 2 ^ (96 : Nat)
  scale_le : scale ≤ 28
deriving DecidableEq

namespace Decimal

/-- The bound on the digits, taken as one integer. -/
abbrev coeffBound : Nat := 2 ^ (96 : Nat)

/-- The greatest scale. -/
abbrev maxScale : Nat := 28

/-- The digits with their sign, as one integer. -/
def coeff (d : Decimal) : Int :=
  if d.negative then -(d.digits : Int) else d.digits

/-- The number a decimal stands for. -/
def toRat (d : Decimal) : Rat :=
  (d.coeff : Rat) / ((10 ^ d.scale : Nat) : Rat)

/-- A decimal from its digits with their sign and its scale, if they are in
range. A zero that is made this way has no sign. -/
def ofParts? (coeff : Int) (scale : Nat) : Option Decimal :=
  if h : coeff.natAbs < 2 ^ (96 : Nat) ∧ scale ≤ 28 then
    some ⟨decide (coeff < 0), coeff.natAbs, scale, h.1, h.2⟩
  else none

/-- The decimal `0` without fraction digits. -/
def zero : Decimal := ⟨false, 0, 0, by decide, by decide⟩

/-- The decimal `100`. -/
def hundred : Decimal := ⟨false, 100, 0, by decide, by decide⟩

instance : Inhabited Decimal := ⟨zero⟩

/-- The decimal stands for zero. -/
def isZero (d : Decimal) : Bool := d.digits == 0

@[simp] theorem natAbs_coeff (d : Decimal) : d.coeff.natAbs = d.digits := by
  unfold coeff; split <;> simp

theorem coeff_eq_zero_iff (d : Decimal) : d.coeff = 0 ↔ d.digits = 0 := by
  rw [← Int.natAbs_eq_zero, natAbs_coeff]

/-- The parts a decimal is made of come back. -/
theorem coeff_of_ofParts? {c : Int} {s : Nat} {d : Decimal} (h : ofParts? c s = some d) :
    d.coeff = c ∧ d.scale = s := by
  unfold ofParts? at h
  split at h
  · obtain rfl := Option.some.inj h
    refine ⟨?_, rfl⟩
    simp only [coeff, decide_eq_true_eq]
    split <;> omega
  · simp at h

/-! ## Comparison

By the number, so by cross multiplication. -/

/-- The first stands for a smaller number than the second. -/
protected def lt (a b : Decimal) : Prop :=
  a.coeff * 10 ^ b.scale < b.coeff * 10 ^ a.scale

/-- The first stands for a number not above that of the second. -/
protected def le (a b : Decimal) : Prop :=
  a.coeff * 10 ^ b.scale ≤ b.coeff * 10 ^ a.scale

instance : LT Decimal := ⟨Decimal.lt⟩
instance : LE Decimal := ⟨Decimal.le⟩

instance (a b : Decimal) : Decidable (a < b) :=
  inferInstanceAs (Decidable (a.coeff * 10 ^ b.scale < b.coeff * 10 ^ a.scale))

instance (a b : Decimal) : Decidable (a ≤ b) :=
  inferInstanceAs (Decidable (a.coeff * 10 ^ b.scale ≤ b.coeff * 10 ^ a.scale))

/-- The two stand for one number. -/
def sameValue (a b : Decimal) : Bool :=
  a.coeff * 10 ^ b.scale == b.coeff * 10 ^ a.scale

@[simp] theorem coeff_zero : zero.coeff = 0 := rfl

@[simp] theorem scale_zero : zero.scale = 0 := rfl

/-- The sign of a number is the sign of its coefficient. -/
theorem lt_zero_iff (a : Decimal) : a < zero ↔ a.coeff < 0 := by
  show a.coeff * 10 ^ (0 : Nat) < 0 * 10 ^ a.scale ↔ _
  simp

theorem le_zero_iff (a : Decimal) : a ≤ zero ↔ a.coeff ≤ 0 := by
  show a.coeff * 10 ^ (0 : Nat) ≤ 0 * 10 ^ a.scale ↔ _
  simp

theorem zero_lt_iff (a : Decimal) : zero < a ↔ 0 < a.coeff := by
  show 0 * 10 ^ a.scale < a.coeff * 10 ^ (0 : Nat) ↔ _
  simp

/-! ## Fewest fraction digits -/

/-- Drops zeros from the end of some digits, at most `n` of them; answers
the digits and how many zeros could still go. -/
def stripZeros : Nat → Nat → Nat × Nat
  | 0, m => (m, 0)
  | n + 1, m => if m % 10 = 0 then stripZeros n (m / 10) else (m, n + 1)

theorem stripZeros_fst_le (n m : Nat) : (stripZeros n m).1 ≤ m := by
  induction n generalizing m with
  | zero => exact Nat.le_refl _
  | succ n ih =>
    rw [stripZeros]
    split
    · exact Nat.le_trans (ih _) (Nat.div_le_self _ _)
    · exact Nat.le_refl _

theorem stripZeros_snd_le (n m : Nat) : (stripZeros n m).2 ≤ n := by
  induction n generalizing m with
  | zero => exact Nat.le_refl _
  | succ n ih =>
    rw [stripZeros]
    split
    · exact Nat.le_trans (ih _) (Nat.le_succ n)
    · exact Nat.le_refl _

/-- **The same number with no zero at the end of its fraction.** A zero
becomes plain `0`. -/
def normalize (d : Decimal) : Decimal where
  negative := d.negative && !d.isZero
  digits := (stripZeros d.scale d.digits).1
  scale := (stripZeros d.scale d.digits).2
  digits_lt := Nat.lt_of_le_of_lt (stripZeros_fst_le _ _) d.digits_lt
  scale_le := Nat.le_trans (stripZeros_snd_le _ _) d.scale_le

end Decimal

end ChainLedger
