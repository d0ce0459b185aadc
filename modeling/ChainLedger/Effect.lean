import ChainLedger.Address
import ChainLedger.Decimal.Numeral
import ChainLedger.Json.Basic

/-!
# Side effects

What is to happen after an event was applied: notifications, mails, and
messages to a partner. A transition only describes its effects; they are
fired after its writes are in, one after the other, and one that fails is
counted and changes nothing.
-/

namespace ChainLedger

/-- Something to happen outside the ledgers. -/
inductive Effect
  /-- A notification to everyone who listens to a topic. -/
  | emit (topic event : String) (payload : Json)
  /-- A mail made from a template. -/
  | email (template recipientId : String) (params : Json)
  /-- A fractional token for the partner to list. -/
  | listCoin (fnftId : String) (token : Address) (chain : Nat) (totalSupply : Decimal)
  /-- A fee for the partner to know of. -/
  | notifyFee (offeringId : String) (fee : Decimal) (currency : Address)

namespace Effect

/-- The effect goes to the partner. -/
def isForPartner : Effect → Bool
  | .listCoin .. => true
  | .notifyFee .. => true
  | _ => false

/-- **Fires effects in order** and counts the ones that fail. `fire` answers
whether an effect was taken. -/
def fireAll {σ : Type} (fire : Effect → σ → Bool × σ) : List Effect → σ → Nat × σ
  | [], s => (0, s)
  | e :: rest, s =>
    let (taken, s) := fire e s
    let (failed, s) := fireAll fire rest s
    (if taken then failed else failed + 1, s)

end Effect

end ChainLedger
