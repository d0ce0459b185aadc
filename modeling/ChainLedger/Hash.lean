import ChainLedger.Text.Hex

/-!
# Hashes

A hash is 32 bytes: the digest of a transaction, a block or a message. It is
written in lower case digits and read in either case.
-/

namespace ChainLedger

/-- The 32 bytes of a digest. -/
structure Hash where
  bytes : Bytes
  length_bytes : bytes.length = 32
deriving DecidableEq

namespace Hash

/-- The hash whose bytes are the lowest 32 of a number. -/
def ofNat (n : Nat) : Hash := ⟨Hex.ofNat 32 n, Hex.length_ofNat 32 n⟩

instance : Inhabited Hash := ⟨ofNat 0⟩

/-- The written form: the mark `0x` and 64 lower case digits. -/
def toText (h : Hash) : String := Hex.encode0x h.bytes

instance : ToString Hash := ⟨toText⟩

/-- **Reading a hash**: an optional mark `0x` or `0X`, then exactly 64
digits of either case. -/
def ofText? (s : String) : Except Hex.Fault Hash :=
  match Hex.decodeExactly 32 (Hex.dropAnyMark (Text.utf8 s)) with
  | .error e => .error e
  | .ok bs => if h : bs.length = 32 then .ok ⟨bs, h⟩ else .error .wrongLength

end Hash

end ChainLedger
