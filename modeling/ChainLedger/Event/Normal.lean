import ChainLedger.Event.Payload
import ChainLedger.Ledger.Refusal

/-!
# Events

An `InboundEvent` is an event as it is delivered, perhaps more than once. An
`Event` is what is made of it: where it comes from, and its typed payload.
The hash of its transaction is brought into one spelling, which is the key
that keeps it from being applied twice (`normalHash`). Events of unknown
names are nobody's business.
-/

namespace ChainLedger

/-- An event as it is delivered. -/
structure InboundEvent where
  recordId : String
  eventName : String
  chain : Nat
  contract : Address
  txHash : Option String
  metadata : Json

open Codec in
/-- An event as it is written. -/
def InboundEvent.codec : Codec InboundEvent :=
  record "InboundEvent" <| (Fields.start mk).field "recordId" text recordId
    |>.field "eventName" text eventName
    |>.field "chainId" (word 64) chain
    |>.field "contractAddress" address contract
    |>.optional "transactionHash" text txHash
    |>.fieldOr "metadata" json metadata .null

/-- Where an event comes from. -/
structure Origin where
  recordId : String
  chain : Nat
  contract : Address
  txHash : Option String
deriving DecidableEq

/-- An event that can be applied. -/
structure Event where
  origin : Origin
  payload : Payload

/-- The digits of a hash after a mark `0x` or `0X`, if it has one. -/
def hashDigits : List Char → List Char
  | '0' :: 'x' :: rest => rest
  | '0' :: 'X' :: rest => rest
  | cs => cs

/-- **The one spelling of a hash**: no blanks around, the mark `0x`, ASCII
letters in lower case; none if there are blanks alone. -/
def normalHash (s : String) : Option String :=
  match Text.trimChars s.toList with
  | [] => none
  | cs => some (String.ofList ('0' :: 'x' :: Text.lower (hashDigits cs)))

namespace Origin

/-- The hash of the transaction, where an event is kept by it. -/
def requireTxHash (o : Origin) : Except Refusal String :=
  orRefuse (.malformed (.noTxHash o.recordId)) o.txHash

/-- The bytes of the hash of the transaction. -/
def hash (o : Origin) : Except Refusal Hash := do
  let s ← o.requireTxHash
  (Hash.ofText? s).mapError fun f => .malformed (.badTxHash s f)

end Origin

namespace InboundEvent

/-- Where an event comes from. -/
def origin (e : InboundEvent) : Origin where
  recordId := e.recordId
  chain := e.chain
  contract := e.contract
  txHash := e.txHash.bind normalHash

/-- **What is made of an event**: nothing if its name is unknown, a refusal
if its metadata do not fit its name. -/
def normalize (e : InboundEvent) : Except Refusal (Option Event) :=
  match Payload.reader? e.eventName with
  | none => .ok none
  | some read =>
    match read e.metadata with
    | .ok p => .ok (some ⟨e.origin, p⟩)
    | .error r => .error (.malformed (.metadata e.eventName r))

end InboundEvent

end ChainLedger
