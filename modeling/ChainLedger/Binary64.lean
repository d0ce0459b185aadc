/-!
# Binary floating point numbers, held as their bits

A `Binary64` is the 64 bits of a double. Two things are done with one: a
written number that is no integer of 64 bits is read into it
(`Binary64.ofScaled`), and its shortest decimal digits are written back
(`Binary64.shortest`). All arithmetic of the second is exact, on the
significand and the exponent that the bits stand for.
-/

namespace ChainLedger

-- A power is the one of the core library, whatever other structure is in scope.
attribute [local instance (2000)] instPowNat

/-- The bits of a double. -/
structure Binary64 where
  bits : UInt64
deriving DecidableEq, Inhabited, Repr

namespace Binary64

/-- The bits of a machine float. -/
def ofFloat (x : Float) : Binary64 := ⟨x.toBits⟩

/-- The sign bit. -/
def negative (x : Binary64) : Bool := x.bits >>> 63 == 1

/-- The exponent field, 0 for zero and the subnormals. -/
def exponentField (x : Binary64) : Nat := ((x.bits >>> 52) &&& 0x7FF).toNat

/-- The fraction field. -/
def fractionField (x : Binary64) : Nat := (x.bits &&& 0xFFFFFFFFFFFFF).toNat

/-- The integer `m` of `m · 2 ^ power`, the value without its sign. -/
def significand (x : Binary64) : Nat :=
  if x.exponentField = 0 then x.fractionField else 2 ^ (52 : Nat) + x.fractionField

/-- The power of two that scales `significand`. -/
def power (x : Binary64) : Int :=
  if x.exponentField = 0 then -1074 else (x.exponentField : Int) - 1075

/-- Positive or negative zero. -/
def isZero (x : Binary64) : Bool := x.significand == 0

/-! ## Reading a written number -/

/-- **A written number is scaled once.** The digits are taken as one
integer of at most 64 bits and multiplied, or divided, by one power of ten,
each in double arithmetic; below the range a first division by `10 ^ 308`
is made for every 308 places. A number above the range has no value. -/
def scaled : Nat → Float → Int → Option Float
  | 0, _, _ => none
  | n + 1, x, e =>
    if e.natAbs ≤ 308 then
      let scale := Float.ofScientific 1 false e.natAbs
      if 0 ≤ e then
        let y := x * scale
        if y.isInf then none else some y
      else some (x / scale)
    else if x == 0.0 then some x
    else if 0 ≤ e then none
    else scaled n (x / Float.ofScientific 1 false 308) (e + 308)

/-- The value `±digits · 10 ^ exponent` as a double, for digits that fit 64 bits. -/
def ofScaled (negative : Bool) (digits : Nat) (exponent : Int) : Option Binary64 :=
  (scaled 8 (Float.ofNat digits) (max exponent (-2400))).map fun x =>
    ofFloat (if negative then -x else x)

/-! ## Shortest digits

A decimal stands for the double when it lies in the interval of reals that
round to it: half a unit to each side, the ends included exactly when the
significand is even. The fewest digits win; of two decimals with as many
digits, the nearer; of two as near, the one that a `Tie` names. -/

/-- Which of two decimals that are as near to a double stands for it. -/
inductive Tie
  /-- The one with the even last digit. -/
  | even
  /-- The one farther from zero. -/
  | away
deriving DecidableEq, Repr

/-- The lower of the two, which is `n` units of the last place, is taken. -/
def Tie.takesLower : Tie → Nat → Bool
  | .even, n => n % 2 == 0
  | .away, _ => false

/-- The interval of reals that round to a double: everything is a multiple
of `1 / den`, and `value` lies between `low` and `high`. -/
structure Interval where
  low : Nat
  value : Nat
  high : Nat
  den : Nat
  closed : Bool

/-- The interval of the magnitude of a finite double. -/
def interval (x : Binary64) : Interval :=
  let m := x.significand
  let lower := if m = 2 ^ (52 : Nat) ∧ 1 < x.exponentField then 1 else 2
  let e := x.power - 2
  let up := if 0 ≤ e then 2 ^ e.toNat else 1
  let down := if 0 ≤ e then 1 else 2 ^ (-e).toNat
  { low := (4 * m - lower) * up
    value := 4 * m * up
    high := (4 * m + 2) * up
    den := down
    closed := m % 2 == 0 }

/-- The quotient `num / den` lies in the interval, where all of it is over `i.den`. -/
def Interval.holds (i : Interval) (num den : Nat) : Bool :=
  if i.closed then i.low * den ≤ num * i.den && num * i.den ≤ i.high * den
  else i.low * den < num * i.den && num * i.den < i.high * den

/-- The distance of `num / den` from the value, times `den · i.den`. -/
def Interval.distance (i : Interval) (num den : Nat) : Nat :=
  let a := num * i.den
  let b := i.value * den
  if a ≤ b then b - a else a - b

/-- The multiple of `10 ^ p` that stands for the value, if there is one. -/
def Interval.onGrid (i : Interval) (tie : Tie) (p : Int) : Option Nat :=
  let scaleUp := if 0 ≤ p then 10 ^ p.toNat else 1
  let scaleDown := if 0 ≤ p then 1 else 10 ^ (-p).toNat
  let below := i.value * scaleDown / (i.den * scaleUp)
  let lowFits := i.holds (below * scaleUp) scaleDown
  let highFits := i.holds ((below + 1) * scaleUp) scaleDown
  if lowFits && highFits then
    let dl := i.distance (below * scaleUp) scaleDown
    let dh := i.distance ((below + 1) * scaleUp) scaleDown
    if dl < dh then some below
    else if dh < dl then some (below + 1)
    else if tie.takesLower below then some below else some (below + 1)
  else if lowFits then some below
  else if highFits then some (below + 1)
  else none

/-- The power of ten of the leading digit of `num / den`. -/
def leading (num den : Nat) : Int :=
  if den ≤ num then ((toString (num / den)).length : Int) - 1
  else
    let rec go : Nat → Nat → Int
      | 0, k => -(k : Int)
      | n + 1, k => if den ≤ num * 10 ^ k then -(k : Int) else go n (k + 1)
    go 400 1

/-- Digits and a power of ten, `digits · 10 ^ exponent`. -/
structure Digits where
  digits : Nat
  exponent : Int

/-- Zeros at the end of the digits go into the exponent. -/
def Digits.strip : Nat → Digits → Digits
  | 0, d => d
  | n + 1, d =>
    if d.digits ≠ 0 ∧ d.digits % 10 = 0 then
      Digits.strip n ⟨d.digits / 10, d.exponent + 1⟩
    else d

/-- The shortest decimal that reads back as the magnitude of a finite,
non-zero double. Seventeen digits always suffice. -/
def shortest (x : Binary64) (tie : Tie) : Digits :=
  let i := x.interval
  let top := leading i.value i.den
  let rec go : Nat → Int → Digits
    | 0, p => ⟨i.value * (if 0 ≤ p then 1 else 10 ^ (-p).toNat) /
        (i.den * (if 0 ≤ p then 10 ^ p.toNat else 1)), p⟩
    | n + 1, p =>
      match i.onGrid tie p with
      | some d => if d = 0 then go n (p - 1) else ⟨d, p⟩
      | none => go n (p - 1)
  (go 18 top).strip 20

/-- So many zeros. -/
def zeros (n : Nat) : String := String.ofList (List.replicate n '0')

/-- **The plain text** of a finite double: the shortest digits, a tie going
away from zero, positional, with no exponent and no point after an integer. -/
def plain (x : Binary64) : String :=
  let sign := if x.negative then "-" else ""
  if x.isZero then sign ++ "0"
  else
    let d := x.shortest .away
    let ds := toString d.digits
    if 0 ≤ d.exponent then sign ++ ds ++ zeros d.exponent.toNat
    else
      let places := (-d.exponent).toNat
      if places < ds.length then
        let cut := ds.length - places
        sign ++ String.ofList (ds.toList.take cut) ++ "." ++ String.ofList (ds.toList.drop cut)
      else sign ++ "0." ++ zeros (places - ds.length) ++ ds

/-- **The compact text** of a finite double: the shortest digits, a tie
going to the even one, positional while the point is at most sixteen places
to the right and four zeros to the left of the digits, with a signed
exponent elsewhere, and always a point or an exponent. -/
def compact (x : Binary64) : String :=
  let sign := if x.negative then "-" else ""
  if x.isZero then sign ++ "0.0"
  else
    let d := x.shortest .even
    let ds := (toString d.digits).toList
    let point : Int := (ds.length : Int) + d.exponent
    if 0 ≤ d.exponent ∧ point ≤ 16 then
      sign ++ String.ofList ds ++ zeros d.exponent.toNat ++ ".0"
    else if 0 < point ∧ point ≤ 16 then
      sign ++ String.ofList (ds.take point.toNat) ++ "." ++ String.ofList (ds.drop point.toNat)
    else if -5 < point ∧ point ≤ 0 then
      sign ++ "0." ++ zeros (-point).toNat ++ String.ofList ds
    else
      let e := (if 0 < point then "e+" else "e") ++ toString (point - 1)
      match ds with
      | [c] => sign ++ String.ofList [c] ++ e
      | c :: rest => sign ++ String.ofList (c :: '.' :: rest) ++ e
      | [] => sign

end Binary64

end ChainLedger
