import ChainLedger.Text.Utf8
import ChainLedger.Text.Quoted

/-!
# Bytes as hexadecimal text

Bytes are written as two lower case digits each and read from digits of
either case. Reading fails on an odd number of digits, or else at the first
byte that is no digit. Main statement: `decode_encode`, reading undoes
writing.
-/

namespace ChainLedger.Hex

-- A power is the one of the core library, whatever other structure is in scope.
attribute [local instance (2000)] instPowNat

/-- The value of a hexadecimal digit of either case. -/
def digit? (b : UInt8) : Option Nat :=
  if 0x30 ≤ b ∧ b ≤ 0x39 then some (b.toNat - 0x30)
  else if 0x61 ≤ b ∧ b ≤ 0x66 then some (b.toNat - 0x61 + 10)
  else if 0x41 ≤ b ∧ b ≤ 0x46 then some (b.toNat - 0x41 + 10)
  else none

/-- The lower case digit of a value below sixteen. -/
def digitChar (n : Nat) : Char :=
  Nat.digitChar n

/-- The upper case digit of a value below sixteen. -/
def upperChar (n : Nat) : Char :=
  (Nat.digitChar n).toUpper

/-- The two digits of a byte. -/
def byteDigits (b : UInt8) : List Char :=
  [digitChar (b.toNat / 16), digitChar (b.toNat % 16)]

/-- The digits of some bytes. -/
def digits (bs : Bytes) : List Char :=
  bs.flatMap byteDigits

/-- **Bytes as text**: two lower case digits each, no mark in front. -/
def encode (bs : Bytes) : String :=
  String.ofList (digits bs)

/-- Bytes as text with the mark `0x` in front. -/
def encode0x (bs : Bytes) : String :=
  "0x" ++ encode bs

/-- Why a text is not the hexadecimal form of some bytes. -/
inductive Fault
  /-- The number of digits is odd. -/
  | oddLength
  /-- The number of digits is not twice the number of bytes asked for. -/
  | wrongLength
  /-- The first byte that is no digit, and where it stands. -/
  | badDigit (byte : UInt8) (position : Nat)
deriving DecidableEq, Repr

/-- The wording of a fault. -/
def Fault.message : Fault → String
  | .oddLength => "odd number of digits"
  | .wrongLength => "invalid string length"
  | .badDigit b n =>
    "invalid character " ++ Text.quotedChar (Char.ofNat b.toNat) ++ " at position " ++ toString n

/-- The wording of a fault as a sentence of its own. -/
def Fault.sentence (f : Fault) : String :=
  match f.message.toList with
  | [] => ""
  | c :: cs => String.ofList (c.toUpper :: cs)

/-- Digits, two by two, from the given position on. -/
def decodePairs : Nat → Bytes → Except Fault Bytes
  | n, a :: b :: rest =>
    match digit? a, digit? b with
    | none, _ => .error (.badDigit a n)
    | some _, none => .error (.badDigit b (n + 1))
    | some x, some y => (decodePairs (n + 2) rest).map (UInt8.ofNat (16 * x + y) :: ·)
  | _, _ => .ok []

/-- **Text as bytes.** An odd number of digits is refused before any of them
is looked at. -/
def decode (digits : Bytes) : Except Fault Bytes :=
  if digits.length % 2 = 1 then .error .oddLength else decodePairs 0 digits

/-- Text as exactly `n` bytes. The parity is looked at first, then the
length, then the digits. -/
def decodeExactly (n : Nat) (digits : Bytes) : Except Fault Bytes :=
  if digits.length % 2 = 1 then .error .oddLength
  else if digits.length ≠ 2 * n then .error .wrongLength
  else decodePairs 0 digits

/-- The bytes after the mark `0x`, or all of them without it. -/
def dropMark (bs : Bytes) : Bytes :=
  match bs with
  | 0x30 :: 0x78 :: rest => rest
  | bs => bs

/-- The bytes after the mark `0x` or `0X`, or all of them without it. -/
def dropAnyMark (bs : Bytes) : Bytes :=
  match bs with
  | 0x30 :: 0x78 :: rest => rest
  | 0x30 :: 0x58 :: rest => rest
  | bs => bs

/-! ## Reading undoes writing -/

theorem map_digit?_digitChar :
    ∀ n : Fin 16, (String.utf8EncodeChar (digitChar n)).map digit? = [some n.val] := by
  decide

/-- A written digit is one byte, and reads as the value it was written for. -/
theorem digit?_digitChar (n : Fin 16) :
    ∃ d, String.utf8EncodeChar (digitChar n) = [d] ∧ digit? d = some n.val :=
  List.map_eq_singleton_iff.mp (map_digit?_digitChar n)

theorem utf8Chars_digits_cons (b : UInt8) (bs : Bytes) :
    ∃ hi lo, Text.utf8Chars (digits (b :: bs)) = hi :: lo :: Text.utf8Chars (digits bs) ∧
      digit? hi = some (b.toNat / 16) ∧ digit? lo = some (b.toNat % 16) := by
  have hb : b.toNat < 256 := b.toNat_lt
  obtain ⟨hi, hhi, vhi⟩ := digit?_digitChar ⟨b.toNat / 16, by omega⟩
  obtain ⟨lo, hlo, vlo⟩ := digit?_digitChar ⟨b.toNat % 16, by omega⟩
  refine ⟨hi, lo, ?_, vhi, vlo⟩
  simp only [digits, List.flatMap_cons, byteDigits, Text.utf8Chars, List.cons_append,
    List.nil_append, hhi, hlo]

theorem decodePairs_digits (bs : Bytes) (n : Nat) :
    decodePairs n (Text.utf8Chars (digits bs)) = .ok bs := by
  induction bs generalizing n with
  | nil => rfl
  | cons b bs ih =>
    obtain ⟨hi, lo, hcons, vhi, vlo⟩ := utf8Chars_digits_cons b bs
    have hval : UInt8.ofNat (16 * (b.toNat / 16) + b.toNat % 16) = b := by
      rw [Nat.div_add_mod]; simp
    rw [hcons, decodePairs, vhi, vlo]
    simp only [ih, Except.map, hval]

/-- Two digits for each byte. -/
theorem length_utf8Chars_digits (bs : Bytes) :
    (Text.utf8Chars (digits bs)).length = 2 * bs.length := by
  induction bs with
  | nil => rfl
  | cons b bs ih =>
    obtain ⟨hi, lo, hcons, -, -⟩ := utf8Chars_digits_cons b bs
    rw [hcons]; simp only [List.length_cons, ih]; omega

/-- **Reading undoes writing.** -/
theorem decode_encode (bs : Bytes) : decode (Text.utf8 (encode bs)) = .ok bs := by
  have hlen := length_utf8Chars_digits bs
  simp only [decode, Text.utf8, encode, String.toList_ofList]
  rw [if_neg (by omega), decodePairs_digits]

/-! ## Numbers and bytes -/

/-- The number that some bytes stand for, most significant byte first. -/
def toNat (bs : Bytes) : Nat :=
  bs.foldl (fun n b => 256 * n + b.toNat) 0

/-- The lowest `k` bytes of a number, most significant byte first. -/
def ofNat : Nat → Nat → Bytes
  | 0, _ => []
  | k + 1, n => ofNat k (n / 256) ++ [UInt8.ofNat (n % 256)]

@[simp] theorem length_ofNat (k n : Nat) : (ofNat k n).length = k := by
  induction k generalizing n with
  | zero => rfl
  | succ k ih => simp [ofNat, ih]

/-- The number that `k` bytes were made from comes back, up to `256 ^ k`. -/
theorem toNat_ofNat (k n : Nat) : toNat (ofNat k n) = n % 256 ^ k := by
  induction k generalizing n with
  | zero => simp [ofNat, toNat, Nat.mod_one]
  | succ k ih =>
    have hlow : (UInt8.ofNat (n % 256)).toNat = n % 256 := by
      simp [UInt8.toNat_ofNat']
    have hsplit : toNat (ofNat (k + 1) n) = 256 * toNat (ofNat k (n / 256)) + n % 256 := by
      simp only [ofNat, toNat, List.foldl_append, List.foldl_cons, List.foldl_nil, hlow]
    rw [hsplit, ih, Nat.pow_succ, Nat.mul_comm (256 ^ k) 256, Nat.mod_mul]
    omega

/-- Numbers that `k` bytes can hold are told apart by them. -/
theorem ofNat_inj {k m n : Nat} (hm : m < 256 ^ k) (hn : n < 256 ^ k)
    (h : ofNat k m = ofNat k n) : m = n := by
  have hnumber := congrArg toNat h
  rwa [toNat_ofNat, toNat_ofNat, Nat.mod_eq_of_lt hm, Nat.mod_eq_of_lt hn] at hnumber

/-- The shortest hexadecimal text of a number, with the mark `0x`. -/
def quantity (n : Nat) : String :=
  "0x" ++ String.ofList (Text.hexDigits n)

end ChainLedger.Hex
