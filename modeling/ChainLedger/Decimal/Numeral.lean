import ChainLedger.Decimal.Arithmetic

/-!
# Decimals as text

A decimal is written with exactly as many fraction digits as its scale. A
written decimal is a sign, digits with a point anywhere among them, and
underscores after the first digit; or such a numeral and an exponent. Of a
fraction that is too long the first digit beyond the range rounds the rest,
half up; what follows it must be digits and underscores, and does not count.

An exponent moves the scale. Where the scale would pass its bound, digits
are dropped first, the first of them rounding half up, and the sign stays
even if nothing but zero is left: this is how a `-0` is written.
-/

namespace ChainLedger

-- A power is the one of the core library, whatever other structure is in scope.
attribute [local instance (2000)] instPowNat

namespace Decimal

/-- Digits with at least `n` of them, zeros in front. -/
def padded (n : Nat) (ds : List Char) : List Char :=
  List.replicate (n - ds.length) '0' ++ ds

/-- **The text of a decimal**: a minus where the sign is one, and as many
fraction digits as the scale. -/
def toText (d : Decimal) : String :=
  let ds := padded (d.scale + 1) (Nat.toDigits 10 d.digits)
  let cut := ds.length - d.scale
  let body := if d.scale = 0 then ds else ds.take cut ++ '.' :: ds.drop cut
  String.ofList (if d.negative then '-' :: body else body)

instance : ToString Decimal := ⟨toText⟩

/-! ## Plain numerals -/

/-- The digits read so far: the value, how many of them stand after the
point, whether the point was seen, and whether a digit was. -/
structure Reading where
  value : Nat
  places : Nat
  pointed : Bool
  started : Bool

/-- The value of a decimal digit. -/
def digit? (c : Char) : Option Nat :=
  if c.isDigit then some (c.toNat - '0'.toNat) else none

/-- A coefficient and a scale with a sign; a zero has none. -/
def signed? (negative : Bool) (value scale : Nat) : Option Decimal :=
  ofParts? (if negative then -(value : Int) else value) scale

/-- The character may stand among the digits that do not count. -/
def isPassed (c : Char) : Bool := c.isDigit || c = '_'

/-- The value with one more unit in its last place. A value that reaches the
bound that way gives away a place. -/
def roundUp (negative : Bool) (r : Reading) : Option Decimal :=
  if r.value + 1 < coeffBound then signed? negative (r.value + 1) r.places
  else if r.places = 0 then none
  else signed? negative ((r.value + 5) / 10) (r.places - 1)

/-- **The first character beyond the range** rounds the value, half up: a
digit by its worth, an underscore as zero. -/
def roundBy (negative : Bool) (r : Reading) (c : Char) (rest : List Char) : Option Decimal :=
  if isPassed c ∧ rest.all isPassed then
    if 5 ≤ (digit? c).getD 0 then roundUp negative r else signed? negative r.value r.places
  else none

/-- From this value on a numeral is read in wide words. -/
def wideBound : Nat := (2 ^ (64 : Nat) - 1) / 10 - 255

/-- The end of a fraction of 28 places. A value that was wide before its last
place lets underscores stand between it and the rounding digit. -/
def roundLast (negative : Bool) (r : Reading) (c : Char) (rest : List Char) : Option Decimal :=
  if c = '_' ∧ wideBound ≤ r.value / 10 then
    match rest.dropWhile (· = '_') with
    | [] => signed? negative r.value r.places
    | c :: rest => roundBy negative r c rest
  else roundBy negative r c rest

/-- Digits, point and underscores from here to the end. -/
def readDigits (negative : Bool) (r : Reading) : List Char → Option Decimal
  | [] => if r.started then signed? negative r.value r.places else none
  | c :: rest =>
    if r.pointed ∧ r.places = maxScale then roundLast negative r c rest
    else
      match digit? c with
      | some d =>
        let value := r.value * 10 + d
        if value < coeffBound then
          readDigits negative ⟨value, if r.pointed then r.places + 1 else 0, r.pointed, true⟩ rest
        else if r.pointed then roundBy negative r c rest
        else none
      | none =>
        if c = '.' ∧ ¬ r.pointed then readDigits negative { r with pointed := true } rest
        else if c = '_' ∧ r.started then readDigits negative r rest
        else none

/-- A numeral without exponent. -/
def ofPlain? (cs : List Char) : Option Decimal :=
  match cs with
  | '-' :: rest => readDigits true ⟨0, 0, false, false⟩ rest
  | '+' :: rest => readDigits false ⟨0, 0, false, false⟩ rest
  | cs => readDigits false ⟨0, 0, false, false⟩ cs

/-! ## Numerals with an exponent -/

/-- An unsigned integer below `2 ^ 32`, with an optional plus sign. -/
def count? (cs : List Char) : Option Nat :=
  let ds := match cs with
    | '+' :: rest => rest
    | cs => cs
  if ds = [] ∨ ¬ ds.all Char.isDigit then none
  else
    let n := ds.foldl (fun n c => n * 10 + (c.toNat - '0'.toNat)) 0
    if n < 2 ^ (32 : Nat) then some n else none

/-- The mark between a numeral and its exponent. -/
def isExponentMark (c : Char) : Bool := c = 'e' || c = 'E'

/-- The decimal `base · 10 ^ exponent`: the scale takes up the exponent as far as it
can, and beyond that the coefficient grows. -/
def shift? (base : Decimal) (exponent : Nat) : Option Decimal :=
  if exponent ≤ base.scale then ofParts? base.coeff (base.scale - exponent)
  else if maxScale < exponent then none
  else ofParts? (base.coeff * 10 ^ (exponent - base.scale)) 0

/-- **Half up**: `m / 10 ^ k`, rounded by the first of the digits that go. -/
def roundHalfUp (m : Nat) : Nat → Nat
  | 0 => m
  | k + 1 => (m / 10 ^ k + 5) / 10

theorem roundHalfUp_le (m k : Nat) : roundHalfUp m k ≤ m := by
  cases k with
  | zero => exact Nat.le_refl _
  | succ k =>
    have h : m / 10 ^ k ≤ m := Nat.div_le_self _ _
    show (m / 10 ^ k + 5) / 10 ≤ m
    omega

/-- The decimal `base / 10 ^ exponent`. The scale takes up the exponent; what
it has no room for costs digits. -/
def shiftDown? (base : Decimal) (exponent : Nat) : Option Decimal :=
  if maxScale < exponent then none
  else some
    { negative := base.negative
      digits := roundHalfUp base.digits (base.scale + exponent - maxScale)
      scale := min (base.scale + exponent) maxScale
      digits_lt := Nat.lt_of_le_of_lt (roundHalfUp_le _ _) base.digits_lt
      scale_le := Nat.min_le_right _ _ }

/-- A numeral with an exponent. -/
def ofScientific? (cs : List Char) : Option Decimal :=
  match cs.dropWhile (fun c => !isExponentMark c) with
  | [] => none
  | _ :: e =>
    match ofPlain? (cs.takeWhile fun c => !isExponentMark c) with
    | none => none
    | some base =>
      match e with
      | '-' :: e => (count? e).bind (shiftDown? base)
      | e => (count? e).bind (shift? base)

/-- **A written decimal.** -/
def ofText? (s : String) : Option Decimal :=
  match ofPlain? s.toList with
  | some d => some d
  | none => ofScientific? s.toList

end Decimal

end ChainLedger
