import ChainLedger.Json.Basic
import ChainLedger.Text.Hex

/-!
# The tokens of JSON text

Texts, numbers and the three names. An integer that fits 64 bits is an
integer; every other number, and `-0`, is a double, and a number beyond the
range of doubles is refused. Of the digits of a number only as many count as
one integer of 64 bits holds; where the whole part has filled it, a digit of
the fraction may still find room.

A token that cannot be read says where its reading stopped (`Json.Token`).
-/

namespace ChainLedger.Json

-- A power is the one of the core library, whatever other structure is in scope.
attribute [local instance (2000)] instPowNat

/-- What reading a token comes to: the token and what follows it, or what is
left where the reading stopped. -/
abbrev Token (α : Type) := Except (List Char) (α × List Char)

/-- What is left after a character at which reading stopped. Only its first
byte is taken, and the rest of a longer character begins nothing. -/
def stopAfter (c : Char) (rest : List Char) : List Char :=
  if c.toNat < 0x80 then rest else []

/-- Blanks between tokens. -/
def isSpace (c : Char) : Bool :=
  c = ' ' || c = '\t' || c = '\n' || c = '\r'

/-- The characters after the blanks. -/
def skipSpace (cs : List Char) : List Char :=
  cs.dropWhile isSpace

/-- The characters of a name that are still to come. -/
def literal : List Char → List Char → Except (List Char) (List Char)
  | [], cs => .ok cs
  | _ :: _, [] => .error []
  | e :: es, c :: cs => if c = e then literal es cs else .error (stopAfter c cs)

/-! ## Numbers -/

/-- The value of a decimal digit. -/
def digitValue (c : Char) : Nat := c.toNat - '0'.toNat

/-- The text begins with a decimal digit. -/
def startsWithDigit : List Char → Bool
  | c :: _ => c.isDigit
  | [] => false

/-- The greatest integer that the digits of a number are collected in. -/
def digitLimit : Nat := 2 ^ (64 : Nat)

/-- The digits of a number as one integer: as many as fit, how many these
are, and how many were left over. -/
structure Collected where
  digits : Nat
  taken : Nat
  dropped : Nat

/-- Adds digits to an integer until one does not fit; the ones after it are
only counted. -/
def Collected.extend (acc : Collected) : List Char → Collected
  | [] => acc
  | c :: rest =>
    let next := acc.digits * 10 + digitValue c
    if acc.dropped = 0 ∧ next < digitLimit then
      Collected.extend ⟨next, acc.taken + 1, 0⟩ rest
    else Collected.extend ⟨acc.digits, acc.taken, acc.dropped + 1⟩ rest

/-- The sign of an exponent and the characters after it. -/
def exponentSign : List Char → Bool × List Char
  | '+' :: r => (true, r)
  | '-' :: r => (false, r)
  | r => (true, r)

/-- The digits of an exponent after those that make `x`, up to the one that
takes it past 31 bits, and what follows. -/
def exponentValue (x : Nat) : List Char → Option Nat × List Char
  | [] => (some x, [])
  | c :: rest =>
    if c.isDigit then
      let x := x * 10 + digitValue c
      if x < 2 ^ (31 : Nat) then exponentValue x rest else (none, rest)
    else (some x, c :: rest)

/-- The number `±digits · 10 ^ exponent` before `rest`, if a double is that
large. -/
def double (negative : Bool) (digits : Nat) (exponent : Int) (rest : List Char) : Token Number :=
  match Binary64.ofScaled negative digits exponent with
  | some x => .ok (.double x, rest)
  | none => .error rest

/-- What follows the integer and fraction digits: an exponent or nothing. An
exponent too large for 31 bits is refused when it grows and gives zero when
it shrinks or the digits are all zero. -/
def exponentPart (negative : Bool) (digits : Nat) (scale : Int) (cs : List Char) :
    Token Number :=
  match cs with
  | [] => double negative digits scale []
  | e :: r =>
    if e = 'e' ∨ e = 'E' then
      let (grows, r) := exponentSign r
      match r with
      | [] => .error []
      | c :: rest =>
        if ¬ c.isDigit then .error (stopAfter c rest)
        else
          match exponentValue 0 (c :: rest) with
          | (some x, rest) =>
            double negative digits (if grows then scale + x else scale - x) rest
          | (none, rest) =>
            if grows ∧ digits ≠ 0 then .error rest
            else double negative 0 0 (rest.dropWhile Char.isDigit)
    else double negative digits scale cs

/-- A number of which the whole part is read, and whatever there is of a
fraction and an exponent. -/
def fractionPart (negative : Bool) (whole : Collected) (cs : List Char) : Token Number :=
  match cs with
  | '.' :: r =>
    if startsWithDigit r then
      let all := Collected.extend ⟨whole.digits, 0, 0⟩ (r.takeWhile Char.isDigit)
      exponentPart negative all.digits ((whole.dropped : Int) - all.taken)
        (r.dropWhile Char.isDigit)
    else .error r
  | 'e' :: _ | 'E' :: _ => exponentPart negative whole.digits whole.dropped cs
  | r =>
    if whole.dropped ≠ 0 then double negative whole.digits whole.dropped r
    else if negative then
      if whole.digits = 0 ∨ 2 ^ (63 : Nat) < whole.digits then double true whole.digits 0 r
      else .ok (.int (-(whole.digits : Int)), r)
    else .ok (.int whole.digits, r)

/-- A number after its sign. Nothing but a zero begins with a zero. -/
def unsignedNumber (negative : Bool) (cs : List Char) : Token Number :=
  match cs with
  | [] => .error []
  | c :: r =>
    if ¬ c.isDigit then .error (stopAfter c r)
    else if c = '0' ∧ startsWithDigit r then .error r
    else
      fractionPart negative (Collected.extend ⟨0, 0, 0⟩ (cs.takeWhile Char.isDigit))
        (cs.dropWhile Char.isDigit)

/-- A number. -/
def number (cs : List Char) : Token Number :=
  match cs with
  | '-' :: r => unsignedNumber true r
  | r => unsignedNumber false r

/-! ## Texts -/

/-- The value of one hexadecimal digit. -/
def hexValue (c : Char) : Option Nat :=
  if c.toNat < 128 then Hex.digit? (UInt8.ofNat c.toNat) else none

/-- What follows `n` bytes, or nothing if they end within a character. -/
def dropBytes (n : Nat) : List Char → List Char
  | [] => []
  | c :: rest =>
    if n = 0 then c :: rest
    else if c.utf8Size ≤ n then dropBytes (n - c.utf8Size) rest
    else []

/-- The value of four hexadecimal digits. -/
def hexValues (a b c d : Char) : Option Nat := do
  let a ← hexValue a
  let b ← hexValue b
  let c ← hexValue c
  let d ← hexValue d
  return ((a * 16 + b) * 16 + c) * 16 + d

/-- The code unit that four digits stand for. Four bytes are taken in any
case. -/
def codeUnit (cs : List Char) : Token Nat :=
  match cs with
  | a :: b :: c :: d :: rest =>
    match hexValues a b c d with
    | some u => .ok (u, rest)
    | none => .error (dropBytes 4 cs)
  | _ => .error (dropBytes 4 cs)

/-- A code unit of the upper half of a pair. -/
def isUpperHalf (u : Nat) : Bool := 0xD800 ≤ u && u < 0xDC00

/-- A code unit of the lower half of a pair. -/
def isLowerHalf (u : Nat) : Bool := 0xDC00 ≤ u && u < 0xE000

/-- The character of a pair of code units, of which the upper one is read. -/
def pairedChar (upper : Nat) (cs : List Char) : Token Char :=
  match cs with
  | '\\' :: 'u' :: rest =>
    match codeUnit rest with
    | .ok (lower, rest) =>
      if isLowerHalf lower then
        .ok (Char.ofNat (0x10000 + (upper - 0xD800) * 0x400 + (lower - 0xDC00)), rest)
      else .error rest
    | .error rest => .error rest
  | '\\' :: c :: rest => .error (stopAfter c rest)
  | c :: rest => .error (stopAfter c rest)
  | [] => .error []

/-- The character of one or two escaped code units. A unit of the upper half
of a pair counts only together with one of the lower half. -/
def escapedChar (cs : List Char) : Token Char :=
  match codeUnit cs with
  | .error rest => .error rest
  | .ok (u, rest) =>
    if isLowerHalf u then .error rest
    else if isUpperHalf u then pairedChar u rest
    else .ok (Char.ofNat u, rest)

/-- The character that a letter after a backslash stands for. -/
def escapedLetter : Char → Option Char
  | '\x22' => some '\x22'
  | '\\' => some '\\'
  | '/' => some '/'
  | 'b' => some '\x08'
  | 'f' => some '\x0c'
  | 'n' => some '\n'
  | 'r' => some '\r'
  | 't' => some '\t'
  | _ => none

/-- The characters of a text after its opening quote, and what follows the
closing one. `acc` holds the characters so far, last first; the first
argument bounds the work and is at least the length of the text. -/
def stringBody : Nat → List Char → List Char → Token String
  | 0, _, _ => .error []
  | n + 1, acc, cs =>
    match cs with
    | '\x22' :: rest => .ok (String.ofList acc.reverse, rest)
    | '\\' :: 'u' :: rest =>
      match escapedChar rest with
      | .ok (c, rest) => stringBody n (c :: acc) rest
      | .error rest => .error rest
    | '\\' :: e :: rest =>
      match escapedLetter e with
      | some c => stringBody n (c :: acc) rest
      | none => .error (stopAfter e rest)
    | c :: rest => if c.toNat < 0x20 then .error rest else stringBody n (c :: acc) rest
    | [] => .error []

/-! ## Scalars -/

/-- **A value that holds no other**: a text, a number, a truth value or
`null`. What begins none of them is left as it is. The first argument bounds
the length of a text. -/
def scalar (n : Nat) (cs : List Char) : Token Json :=
  match cs with
  | '\x22' :: r => (stringBody n [] r).map fun p => (.str p.1, p.2)
  | 't' :: r => (literal ['r', 'u', 'e'] r).map (.bool true, ·)
  | 'f' :: r => (literal ['a', 'l', 's', 'e'] r).map (.bool false, ·)
  | 'n' :: r => (literal ['u', 'l', 'l'] r).map (.null, ·)
  | c :: _ =>
    if c = '-' ∨ c.isDigit then (number cs).map fun p => (.num p.1, p.2) else .error cs
  | [] => .error []

end ChainLedger.Json
