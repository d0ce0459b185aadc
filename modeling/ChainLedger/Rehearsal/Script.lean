import ChainLedger.Chain.Envelope
import ChainLedger.Event.Normal

/-!
# Scripted nodes

A script says how the nodes of a rehearsal answer. The first rule that fits
a request answers it; its replies are given one after the other, and the
last one again and again. A reply may bring events with it that arrive
before it does. Without a rule a node says that it is synced and refuses
everything else.
-/

namespace ChainLedger

/-- A request to a node. -/
structure Request where
  url : String
  method : String
  params : Json

namespace Request

/-- The first of the arguments. -/
def argument? (r : Request) : Option Json :=
  r.params.asItems?.bind List.head?

/-- The text under a key of the first argument. -/
def field? (r : Request) (key : String) : Option String :=
  r.argument?.bind (·.getText? key)

end Request

/-- What a node replies, and the events that arrive before it. -/
structure Reply where
  answer : Except ChainError Json
  deliver : List InboundEvent

/-- Replies to the requests that fit. -/
structure Rule where
  method : String
  url : Option String := none
  target : Option String := none
  data : Option String := none
  hash : Option String := none
  fromBlock : Option String := none
  replies : List Reply

namespace Rule

/-- A condition on a text, if there is one, is met. -/
def meets (wanted found : Option String) : Bool :=
  wanted.isNone || wanted = found

/-- The rule fits a request. -/
def fits (r : Rule) (q : Request) : Bool :=
  r.method = q.method && meets r.url q.url && meets r.target (q.field? "to")
    && meets r.data (q.field? "data") && meets r.hash (q.argument?.bind Json.asText?)
    && meets r.fromBlock (q.field? "fromBlock")

/-- The next reply of a rule, and the rule after it. -/
def next (r : Rule) : Option (Reply × Rule) :=
  match r.replies with
  | [] => none
  | [last] => some (last, r)
  | reply :: rest => some (reply, { r with replies := rest })

end Rule

/-- The rules of a rehearsal, the first that fits first. -/
abbrev Script := List Rule

namespace Script

/-- The reply where no rule fits. -/
def unscripted (method : String) : Reply :=
  if method = "eth_syncing" then ⟨.ok (.bool false), []⟩
  else ⟨.error (.rpc (-32601) ("unexpected " ++ method)), []⟩

/-- **The reply to a request**, and the script after it. -/
def reply (q : Request) : Script → Reply × Script
  | [] => (unscripted q.method, [])
  | r :: rest =>
    if r.fits q then
      match r.next with
      | some (a, r) => (a, r :: rest)
      | none => (unscripted q.method, r :: rest)
    else
      let (a, rest) := reply q rest
      (a, r :: rest)

end Script

end ChainLedger
