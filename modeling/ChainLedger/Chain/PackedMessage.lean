import ChainLedger.Chain.Error
import ChainLedger.Address
import ChainLedger.Hash
import ChainLedger.Crypto.Secp256k1

/-!
# Signed messages

A message is a list of typed values. They are packed without any marks
between them, the digest of the packing is signed as a personal message, and
the signature is 65 bytes: `r`, `s`, and 27 or 28.
-/

namespace ChainLedger

/-- One typed value of a message. -/
inductive PackedField
  | address (a : Address)
  | uint256 (n : BitVec 256)
  | bytes32 (h : Hash)
  | text (s : String)
  | flag (b : Bool)
deriving DecidableEq

/-- The bytes of one value. -/
def PackedField.bytes : PackedField → Bytes
  | .address a => a.bytes
  | .uint256 n => Hex.ofNat 32 n.toNat
  | .bytes32 h => h.bytes
  | .text s => Text.utf8 s
  | .flag b => [if b then 1 else 0]

namespace PackedMessage

/-- **The packing of some values**: their bytes, one after the other. -/
def pack (fields : List PackedField) : Bytes :=
  fields.flatMap PackedField.bytes

/-- What stands in front of the digest of a personal message. -/
def personalMark : Bytes :=
  0x19 :: Text.utf8 "Ethereum Signed Message:\n32"

/-- **The digest that is signed.** -/
def digest (fields : List PackedField) : Bytes :=
  Keccak.digest (personalMark ++ Keccak.digest (pack fields))

/-- The secret behind a key. -/
def secret (key : Bytes) : Except ChainError Nat :=
  match Secp256k1.secretKey? key with
  | some k => .ok k
  | none => .error .signing

/-- **The signature of some values under a key.** -/
def sign (fields : List PackedField) (key : Bytes) : Except ChainError Bytes := do
  let k ← secret key
  match Secp256k1.sign? k (digest fields) with
  | some g => return Hex.ofNat 32 g.r ++ Hex.ofNat 32 g.s ++ [UInt8.ofNat (27 + g.recovery)]
  | none => throw .signing

/-- The address that a key controls: the end of the digest of its public
point. -/
def addressOf (key : Bytes) : Except ChainError Address := do
  let k ← secret key
  return Address.ofTail (Keccak.digest (Secp256k1.publicKey k))

end PackedMessage

end ChainLedger
