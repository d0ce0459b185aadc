import ChainLedger.Instant.Basic
import ChainLedger.Instant.Calendar
import ChainLedger.Text.Blank

/-!
# Instants as timestamps

An instant is written as a date, a `T`, a time of day and a `Z`, with as
many of 0, 3, 6 or 9 fraction digits as it needs; a year of more or fewer
than four digits has a sign. A timestamp is read with `T`, `t` or a blank
between date and time, blanks around the numbers, any offset from universal
time, and digits beyond the nanoseconds dropped.
-/

namespace ChainLedger

-- A power is the one of the core library, whatever other structure is in scope.
attribute [local instance (2000)] instPowNat

open Calendar Text

namespace Instant

/-! ## Writing -/

/-- A number with at least `n` digits. -/
def paddedText (n k : Nat) : String :=
  let ds := Nat.toDigits 10 k
  String.ofList (List.replicate (n - ds.length) '0' ++ ds)

/-- The fraction of a second, in the fewest groups of three digits. -/
def fractionText (nanos : Nat) : String :=
  if nanos = 0 then ""
  else if nanos % 1000000 = 0 then "." ++ paddedText 3 (nanos / 1000000)
  else if nanos % 1000 = 0 then "." ++ paddedText 6 (nanos / 1000)
  else "." ++ paddedText 9 nanos

/-- A year: four digits, or a sign and at least four. -/
def yearText (y : Int) : String :=
  if 0 ≤ y ∧ y ≤ 9999 then paddedText 4 y.toNat
  else (if y < 0 then "-" else "+") ++ paddedText 4 y.natAbs

/-- **The timestamp of an instant.** -/
def toText (t : Instant) : String :=
  let day := t.seconds / 86400
  let second := (t.seconds % 86400).toNat
  let date := Date.ofDayNumber day
  let leap := 1000000000 ≤ t.nanos
  let nanos := if leap then t.nanos - 1000000000 else t.nanos
  let s := if leap then second % 60 + 1 else second % 60
  yearText date.year ++ "-" ++ paddedText 2 date.month ++ "-" ++ paddedText 2 date.day ++ "T" ++
    paddedText 2 (second / 3600) ++ ":" ++ paddedText 2 (second / 60 % 60) ++ ":" ++
    paddedText 2 s ++ fractionText nanos ++ "Z"

/-! ## Reading -/

/-- Between one and `limit` digits at the front, as a number. -/
def number? (limit : Nat) (cs : List Char) : Option (Nat × List Char) :=
  let ds := (cs.takeWhile Char.isDigit).take limit
  if ds = [] then none
  else some (ds.foldl (fun n c => n * 10 + (c.toNat - '0'.toNat)) 0, cs.drop ds.length)

/-- A number after blanks. -/
def field? (cs : List Char) : Option (Nat × List Char) :=
  number? 2 (trimStart cs)

/-- A mark after blanks. -/
def mark? (c : Char) (cs : List Char) : Option (List Char) :=
  match trimStart cs with
  | d :: rest => if c = d then some rest else none
  | [] => none

/-- A year: up to four digits, or a sign and any number of them. -/
def year? (cs : List Char) : Option (Int × List Char) :=
  match trimStart cs with
  | '-' :: rest => (number? rest.length rest).map fun p => (-(p.1 : Int), p.2)
  | '+' :: rest => (number? rest.length rest).map fun p => ((p.1 : Int), p.2)
  | cs => (number? 4 cs).map fun p => ((p.1 : Int), p.2)

/-- The nanoseconds of a fraction, if one stands here. -/
def fraction? (cs : List Char) : Option (Nat × List Char) :=
  match cs with
  | '.' :: rest =>
    match number? 9 rest with
    | none => none
    | some (n, _) =>
      let places := ((rest.takeWhile Char.isDigit).take 9).length
      some (n * 10 ^ (9 - places), rest.dropWhile Char.isDigit)
  | cs => some (0, cs)

/-- The seconds that an offset is ahead of universal time. -/
def offset? (cs : List Char) : Option (Int × List Char) :=
  match cs with
  | 'Z' :: rest | 'z' :: rest => some (0, rest)
  | sign :: h1 :: h2 :: rest =>
    let hours := (h1.toNat - '0'.toNat) * 10 + (h2.toNat - '0'.toNat)
    if (sign = '+' ∨ sign = '-' ∨ sign = '−') ∧ h1.isDigit ∧ h2.isDigit then
      match rest.dropWhile (fun c => c = ':' || isBlank c) with
      | m1 :: m2 :: rest =>
        if '0' ≤ m1 ∧ m1 ≤ '5' ∧ m2.isDigit then
          let minutes := (m1.toNat - '0'.toNat) * 10 + (m2.toNat - '0'.toNat)
          let s : Int := hours * 3600 + minutes * 60
          some (if sign = '+' then s else -s, rest)
        else none
      | _ => none
    else none
  | _ => none

/-- The offset, or the letters `UTC`. -/
def zone? (cs : List Char) : Option (Int × List Char) :=
  match cs with
  | a :: b :: c :: rest =>
    if a.toUpper = 'U' ∧ b.toUpper = 'T' ∧ c.toUpper = 'C' then some (0, rest) else offset? cs
  | cs => offset? cs

/-- A date up to its day. -/
def date? (cs : List Char) : Option (Date × List Char) := do
  let (year, cs) ← year? cs
  let cs ← mark? '-' cs
  let (month, cs) ← field? cs
  let cs ← mark? '-' cs
  let (day, cs) ← field? cs
  some (⟨year, month, day⟩, cs)

/-- The time of a day: seconds into it, and nanoseconds, which are `10 ^ 9`
and more in a leap second. -/
def timeOfDay? (cs : List Char) : Option ((Nat × Nat) × List Char) := do
  let (hour, cs) ← field? cs
  let cs ← mark? ':' cs
  let (minute, cs) ← field? cs
  let cs ← mark? ':' cs
  let (second, cs) ← field? cs
  let (nanos, cs) ← fraction? cs
  if 23 < hour ∨ 59 < minute ∨ 60 < second then none
  else if second = 60 then some ((hour * 3600 + minute * 60 + 59, nanos + 1000000000), cs)
  else some ((hour * 3600 + minute * 60 + second, nanos), cs)

/-- The first second of the calendar. -/
def firstSecond : Int := (Date.dayNumber ⟨firstYear, 1, 1⟩) * 86400

/-- **The instant of a timestamp.** -/
def ofText? (s : String) : Option Instant := do
  let (date, cs) ← date? s.toList
  let cs ← match cs with
    | 'T' :: rest | 't' :: rest | ' ' :: rest => some rest
    | _ => none
  let ((second, nanos), cs) ← timeOfDay? cs
  let (offset, cs) ← zone? (trimStart cs)
  if trimStart cs ≠ [] ∨ ¬ date.valid ∨ 86400 ≤ offset.natAbs then none
  else
    let seconds := date.dayNumber * 86400 + second - offset
    if seconds < firstSecond ∨ lastSecond < seconds then none
    else if h : nanos < 2000000000 then some ⟨seconds, nanos, h⟩
    else none

end Instant

end ChainLedger
