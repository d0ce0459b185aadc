/-!
# How a request over HTTP ends

A request is posted and either ends with an answer, which has a status and a
body, or fails on its way in one of four manners. What the layer below tells
of a failure is kept as it is.
-/

namespace ChainLedger

/-- The end of a request. -/
inductive HttpEnd
  /-- Nobody listens at the address. -/
  | refused (detail : String)
  /-- There was no answer in time. -/
  | timedOut (detail : String)
  /-- The answer began and broke off. -/
  | brokenOff (detail : String)
  /-- The request failed in some other manner. -/
  | failed (detail : String)
  /-- There is an answer. -/
  | answered (status : Nat) (body : String)
deriving DecidableEq, Repr

/-- A status of success. -/
def HttpEnd.isSuccess (status : Nat) : Bool := 200 ≤ status && status < 300

end ChainLedger
