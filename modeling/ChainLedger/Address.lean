import ChainLedger.Text.Hex
import ChainLedger.Crypto.Keccak

/-!
# Addresses

An address is 20 bytes. In documents and requests it is written in lower
case digits (`Address.lower`); in reports, messages and keys it carries a
checksum in the case of its letters (`Address.checksummed`): a letter is
upper case where the digest of the lower case digits has a high digit in the
same place. Reading takes either and does not look at the case.
-/

namespace ChainLedger

/-- The 20 bytes of an account or a contract. -/
structure Address where
  bytes : Bytes
  length_bytes : bytes.length = 20
deriving DecidableEq

namespace Address

/-- The address whose bytes are the lowest 20 of a number. -/
def ofNat (n : Nat) : Address := ⟨Hex.ofNat 20 n, Hex.length_ofNat 20 n⟩

/-- The last 20 of some bytes. -/
def ofTail (bs : Bytes) : Address := ofNat (Hex.toNat bs)

instance : Inhabited Address := ⟨ofNat 0⟩

/-- The number that the bytes of an address stand for. -/
def toNat (a : Address) : Nat := Hex.toNat a.bytes

/-- **The lower case form**, as documents and requests hold it. -/
def lower (a : Address) : String := Hex.encode0x a.bytes

/-- The digits of a digest, as numbers. -/
def nibbles (bs : Bytes) : List Nat :=
  bs.flatMap fun b => [b.toNat / 16, b.toNat % 16]

/-- **The checksummed form**, as reports and keys hold it. -/
def checksummed (a : Address) : String :=
  let plain := Hex.encode a.bytes
  let marks := nibbles (Keccak.digest (Text.utf8 plain))
  let cased := List.zipWith (fun c m => if 8 ≤ m then c.toUpper else c) plain.toList marks
  "0x" ++ String.ofList cased

instance : ToString Address := ⟨checksummed⟩

/-- **Reading an address**: an optional mark `0x` or `0X`, then exactly 40
digits of either case. -/
def ofText? (s : String) : Except Hex.Fault Address :=
  match Hex.decodeExactly 20 (Hex.dropAnyMark (Text.utf8 s)) with
  | .error e => .error e
  | .ok bs => if h : bs.length = 20 then .ok ⟨bs, h⟩ else .error .wrongLength

end Address

end ChainLedger
