import ChainLedger.Chain.Error
import ChainLedger.Address

/-!
# Calls of contracts

A call is the selector of its signature, the first four bytes of the digest,
and its arguments as words of 32 bytes. What it returns is decoded strictly:
bytes that are not exactly what encoding the value gives are refused.
-/

namespace ChainLedger

-- A power is the one of the core library, whatever other structure is in scope.
attribute [local instance (2000)] instPowNat

/-- A call of a contract that answers with an `α`. -/
structure Call (α : Type) where
  signature : String
  arguments : Bytes
  decode : Bytes → Option α

namespace Abi

/-- A number as a word of 32 bytes. -/
def word (n : Nat) : Bytes := Hex.ofNat 32 n

/-- A number from its word, if it is below a bound. -/
def number? (bound : Nat) (bs : Bytes) : Option Nat :=
  if bs.length = 32 ∧ Hex.toNat bs < bound then some (Hex.toNat bs) else none

/-- An address from its word. -/
def address? (bs : Bytes) : Option Address :=
  (number? (256 ^ (20 : Nat)) bs).map Address.ofNat

/-- Zeros up to a whole number of words. -/
def padding (length : Nat) : Bytes :=
  List.replicate ((32 - length % 32) % 32) 0

/-- The bytes that return a text: where it starts, its length, and its bytes
up to whole words. -/
def textBytes (bs : Bytes) : Bytes :=
  word 32 ++ word bs.length ++ bs ++ padding bs.length

/-- A text from the bytes that return it. -/
def text? (bs : Bytes) : Option String :=
  let body := (bs.drop 64).take (Hex.toNat ((bs.drop 32).take 32))
  if textBytes body = bs then Text.ofUtf8? body else none

end Abi

namespace Call

/-- The first four bytes of the digest of a signature. -/
def selector (signature : String) : Bytes :=
  (Keccak.digest (Text.utf8 signature)).take 4

/-- The bytes that are sent. -/
def data {α : Type} (c : Call α) : Bytes :=
  selector c.signature ++ c.arguments

/-- The owner of a token. -/
def ownerOf (token : BitVec 256) : Call Address where
  signature := "ownerOf(uint256)"
  arguments := Abi.word token.toNat
  decode := Abi.address?

/-- Where the description of a token is. -/
def tokenUri (token : BitVec 256) : Call String where
  signature := "tokenURI(uint256)"
  arguments := Abi.word token.toNat
  decode := Abi.text?

/-- How much there is of a fractional token, in its smallest unit. -/
def totalSupply : Call Nat where
  signature := "totalSupply()"
  arguments := []
  decode := Abi.number? (2 ^ (256 : Nat))

/-- How many fraction digits a fractional token has. -/
def decimals : Call Nat where
  signature := "decimals()"
  arguments := []
  decode := Abi.number? 256

/-- How much of a fractional token an account holds. -/
def balanceOf (account : Address) : Call Nat where
  signature := "balanceOf(address)"
  arguments := Abi.word account.toNat
  decode := Abi.number? (2 ^ (256 : Nat))

end Call

end ChainLedger
