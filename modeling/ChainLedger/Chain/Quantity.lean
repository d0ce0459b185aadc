import ChainLedger.Text.Hex

/-!
# Quantities

Nodes write numbers in hexadecimal after an optional mark `0x`. A number of
64 bits is read from the left and may have one `+` in front; a number of 256
bits is read from the right, may have underscores anywhere, and is zero when
no digit is left. Token ids are decimal and read from the left, nineteen
digits at a time. In each case the first problem met is the one that is told.
-/

namespace ChainLedger.Quantity

-- A power is the one of the core library, whatever other structure is in scope.
attribute [local instance (2000)] instPowNat

/-- Why a text is no quantity. -/
inductive Fault
  /-- There is nothing to read. -/
  | empty
  /-- A byte that is no digit. -/
  | badDigit (byte : UInt8)
  /-- The number does not fit. -/
  | tooLarge
deriving DecidableEq, Repr

/-- The wording of a fault in a number of 64 bits. -/
def Fault.wordMessage : Fault → String
  | .empty => "cannot parse integer from empty string"
  | .badDigit _ => "invalid digit found in string"
  | .tooLarge => "number too large to fit in target type"

/-- The wording of a fault in a number of 256 bits. -/
def Fault.longMessage : Fault → String
  | .empty => "empty"
  | .badDigit b => "invalid digit: " ++ String.singleton (Char.ofNat b.toNat)
  | .tooLarge => "the value is too large to fit the target type"

/-- Hexadecimal digits from the left, after those that make `n`. -/
def readWord (n : Nat) : Bytes → Except Fault Nat
  | [] => .ok n
  | b :: rest =>
    match Hex.digit? b with
    | none => .error (.badDigit b)
    | some d => if 16 * n + d < 2 ^ (64 : Nat) then readWord (16 * n + d) rest else .error .tooLarge

/-- The digits after one `+`, unless nothing follows it. -/
def dropPlus (bs : Bytes) : Bytes :=
  match bs with
  | 0x2B :: b :: rest => b :: rest
  | bs => bs

/-- **A number of 64 bits.** -/
def word (s : String) : Except Fault (BitVec 64) :=
  match Hex.dropMark (Text.utf8 s) with
  | [] => .error .empty
  | bs => (readWord 0 (dropPlus bs)).map (BitVec.ofNat 64)

/-- The byte that may stand between digits. -/
def underscore : UInt8 := 0x5F

/-- Hexadecimal digits from the right, where the next one counts `place` and
those before it make `n`. -/
def readLong (place n : Nat) : Bytes → Except Fault Nat
  | [] => .ok n
  | b :: rest =>
    if b = underscore then readLong place n rest
    else
      match Hex.digit? b with
      | none => .error (.badDigit b)
      | some d =>
        if n + d * place < 2 ^ (256 : Nat) then readLong (16 * place) (n + d * place) rest
        else .error .tooLarge

/-- **A number of 256 bits.** -/
def long (s : String) : Except Fault (BitVec 256) :=
  (readLong 1 0 (Hex.dropMark (Text.utf8 s)).reverse).map (BitVec.ofNat 256)

/-- The value of a decimal digit. -/
def decimalDigit? (b : UInt8) : Option Nat :=
  if 0x30 ≤ b ∧ b ≤ 0x39 then some (b.toNat - 0x30) else none

/-- How many decimal digits are taken at a time: as many as one word of 64 bits
always holds. -/
def groupSize : Nat := 19

/-- A number that is followed by `count` more digits, which make `group`. -/
def join (n group count : Nat) : Except Fault Nat :=
  let m := n * 10 ^ count + group
  if m < 2 ^ (256 : Nat) then .ok m else .error .tooLarge

/-- Decimal digits from the left. Full groups make `n`, and the group under
way has `count` digits, which make `group`; only a group that ends is looked
at for its size. -/
def readDecimal (n group count : Nat) : Bytes → Except Fault Nat
  | [] => join n group count
  | b :: rest =>
    if b = underscore then readDecimal n group count rest
    else
      match decimalDigit? b with
      | none => .error (.badDigit b)
      | some d =>
        if count + 1 < groupSize then readDecimal n (10 * group + d) (count + 1) rest
        else
          match join n (10 * group + d) groupSize with
          | .ok n => readDecimal n 0 0 rest
          | .error e => .error e

/-- **A token id**, a decimal number of 256 bits. -/
def tokenId (s : String) : Except Fault (BitVec 256) :=
  (readDecimal 0 0 0 (Text.utf8 s)).map (BitVec.ofNat 256)

end ChainLedger.Quantity
