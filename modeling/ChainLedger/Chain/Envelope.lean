import ChainLedger.Chain.Error
import ChainLedger.Http
import ChainLedger.Json.Parser
import ChainLedger.Json.Printer

/-!
# Envelopes

A request to a node is posted as an object with a number, a method and its
arguments. The node answers with an object that has a `result` or an
`error`. Whatever stands under `error` makes the answer a failure; the code
counts as 0 if it is no integer, and an error without a message is told as a
whole. The status of the answer is not looked at, only its body.
-/

namespace ChainLedger.Envelope

/-- **A request as it is posted.** -/
def request (number : Nat) (method : String) (params : Json) : Json :=
  .obj [("jsonrpc", .str "2.0"), ("id", .nat number), ("method", .str method), ("params", params)]

/-- The failure that a value under `error` stands for. -/
def failure (e : Json) : ChainError :=
  let code := ((e.get? "code").bind Json.asInt64?).getD 0
  let message := (e.getText? "message").getD e.compact
  .ofRpc code message

/-- **The result of an answer**, or the failure that it reports. -/
def result (envelope : Json) : Except ChainError Json :=
  match envelope.get? "error" with
  | some e => .error (failure e)
  | none =>
    match envelope.get? "result" with
    | some r => .ok r
    | none => .error (.transient .invalidResponse "missing result")

/-- A text without the byte order mark that it may begin with. -/
def withoutMark (body : String) : String :=
  match body.toList with
  | '\ufeff' :: rest => String.ofList rest
  | _ => body

/-- The result in the body of an answer. -/
def ofBody (body : String) : Except ChainError Json :=
  match Json.parseValue? (withoutMark body) with
  | some envelope => result envelope
  | none => .error (.transient .invalidResponse "not a JSON value")

/-- **The result of a posted request.** A request that was refused, that took
too long, or whose answer broke off may be tried again. -/
def ofEnd : HttpEnd → Except ChainError Json
  | .refused detail => .error (.transient .connectionRefused detail)
  | .timedOut detail => .error (.transient .timeout detail)
  | .brokenOff detail => .error (.transient .invalidResponse detail)
  | .failed detail => .error (.rpc (-1) detail)
  | .answered _ body => ofBody body

end ChainLedger.Envelope
