import ChainLedger.Ledger.Ledgers
import ChainLedger.Ledger.Revenue
import ChainLedger.Chain.Transaction
import ChainLedger.Event.Normal
import ChainLedger.Effect

/-!
# Attempts

An attempt to apply an event starts from the ledgers as they are seen, may
ask questions of a chain or of the exchange rates, and ends with a refusal
or with one commit. A commit computes new ledgers from those of its own
moment and from what the clock shows at each of its writes; it may still
refuse, and then nothing is written. What was seen may be out of date by
then, so a commit looks again at all it relies on.
-/

namespace ChainLedger

/-- What an attempt may ask. -/
inductive Question
  /-- The owner of a token of the chain's token contract. -/
  | owner (chain : Nat) (token : BitVec 256)
  /-- The supply of a fractional token in its smallest unit, and its fraction digits. -/
  | supply (chain : Nat) (token : Address)
  /-- The receipt of a transaction. -/
  | receipt (chain : Nat) (hash : Hash)
  /-- The exchange rate of a currency. -/
  | rate (chain : Nat) (currency : Address)
deriving DecidableEq

/-- What a question is answered with. -/
def Question.Result : Question → Type
  | .owner .. => Address
  | .supply .. => Nat × Nat
  | .receipt .. => Option Receipt
  | .rate .. => Decimal

/-- The answer to a question, or why there is none. -/
abbrev Question.Answer (q : Question) : Type := Except Refusal q.Result

/-- New ledgers and the effects to fire, from the clock and the ledgers of
the moment. -/
abbrev Commit : Type := Clock → Ledgers → Except Refusal (Ledgers × List Effect)

/-- An attempt to apply an event. -/
inductive Attempt
  /-- The event is not applied. -/
  | refuse (r : Refusal)
  /-- A question is asked; the attempt goes on with the answer. -/
  | ask (q : Question) (next : q.Answer → Attempt)
  /-- The event is applied, or refused at the last moment. -/
  | commit (c : Commit)

namespace Attempt

/-- Goes on with a value, if there is one. -/
def check {α : Type} (x : Except Refusal α) (next : α → Attempt) : Attempt :=
  match x with
  | .ok a => next a
  | .error r => .refuse r

end Attempt

/-- The refusal of an event about a record that is not there. -/
def missing (subject : Subject) (key : String) : Refusal :=
  .skip (.missing subject key)

/-- The assets behind some tokens, as far as the tokens are known. -/
def Ledgers.assetsBehind (l : Ledgers) (nftIds : List String) : List String :=
  nftIds.filterMap fun id => (l.nfts.get? id).map (·.assetId)

end ChainLedger
