import ChainLedger.Chain.Error
import ChainLedger.Address
import ChainLedger.Hash

/-!
# Logs, transactions and receipts

What a node answers about a transaction, decoded from JSON. An address may
be given as 20 bytes or, as in a topic, as the last 20 of 32. Optional
fields count as absent when they are no text: a transaction without a block
is pending, one without a recipient creates a contract, and a receipt
without a status is one of success.
-/

namespace ChainLedger

/-- A log of a contract. -/
structure Log where
  address : Address
  topics : List Hash
  data : Bytes
  blockNumber : BitVec 64
  txHash : Hash
  logIndex : BitVec 64
deriving DecidableEq

/-- A transaction. -/
structure Transaction where
  hash : Hash
  sender : Address
  recipient : Option Address
  blockNumber : Option (BitVec 64)
  value : BitVec 256
  input : Bytes
deriving DecidableEq

/-- The receipt of a mined transaction. -/
structure Receipt where
  txHash : Hash
  success : Bool
  blockNumber : BitVec 64
  logs : List Log
deriving DecidableEq

namespace Decode

/-- Bytes from their text. -/
def bytes (s : String) : Except DecodeFault Bytes :=
  (Hex.decode (Hex.dropMark (Text.utf8 s))).mapError .bytes

/-- A number of 64 bits from its text. -/
def word (s : String) : Except DecodeFault (BitVec 64) :=
  (Quantity.word s).mapError .word

/-- A number of 256 bits from its text. -/
def long (s : String) : Except DecodeFault (BitVec 256) :=
  (Quantity.long s).mapError .long

/-- A hash from its text. -/
def hash (s : String) : Except DecodeFault Hash := do
  let bs ← bytes s
  if h : bs.length = 32 then return ⟨bs, h⟩ else throw (.hashLength bs.length)

/-- An address from its text, alone or at the end of 32 bytes. -/
def address (s : String) : Except DecodeFault Address := do
  let bs ← bytes s
  if h : bs.length = 20 then return ⟨bs, h⟩
  else if h : bs.length = 32 then return ⟨bs.drop 12, by simp [h]⟩
  else throw (.addressLength bs.length)

/-- The text under a key, which must be there. -/
def text (v : Json) (key : String) : Except DecodeFault String :=
  match v.getText? key with
  | some s => .ok s
  | none => .error (.missing key)

/-- The text under a key, read if it is there. -/
def optional {α : Type} (v : Json) (key : String) (read : String → Except DecodeFault α) :
    Except DecodeFault (Option α) :=
  match v.getText? key with
  | some s => (read s).map some
  | none => .ok none

/-- One topic of a log. -/
def topic (v : Json) : Except DecodeFault Hash :=
  match v.asText? with
  | some s => hash s
  | none => .error .topicNotText

/-- **A log.** Its topics are read first. -/
def log (v : Json) : Except DecodeFault Log := do
  let topics ← match (v.get? "topics").bind Json.asItems? with
    | some items => items.mapM topic
    | none => throw (.missing "topics")
  let addr ← address (← text v "address")
  let data ← bytes (← text v "data")
  let blockNumber ← word (← text v "blockNumber")
  let txHash ← hash (← text v "transactionHash")
  let logIndex ← word (← text v "logIndex")
  return ⟨addr, topics, data, blockNumber, txHash, logIndex⟩

/-- **A transaction.** What may be absent is read first. -/
def transaction (v : Json) : Except DecodeFault Transaction := do
  let recipient ← optional v "to" address
  let blockNumber ← optional v "blockNumber" word
  let value ← optional v "value" long
  let input ← optional v "input" bytes
  let txHash ← hash (← text v "hash")
  let sender ← address (← text v "from")
  return ⟨txHash, sender, recipient, blockNumber, value.getD 0, input.getD []⟩

/-- **A receipt.** The status is read first, then the logs. -/
def receipt (v : Json) : Except DecodeFault Receipt := do
  let status ← optional v "status" word
  let logs ← match (v.get? "logs").bind Json.asItems? with
    | some items => items.mapM log
    | none => pure []
  let txHash ← hash (← text v "transactionHash")
  let blockNumber ← word (← text v "blockNumber")
  return ⟨txHash, status.all (· = 1), blockNumber, logs⟩

end Decode

end ChainLedger
