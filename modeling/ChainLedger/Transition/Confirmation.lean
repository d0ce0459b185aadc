import ChainLedger.Transition.Attempt

/-!
# Confirmation of a transaction

Before money moves the transaction behind an event is looked up, unless the
settings waive it: without a receipt it is too early, and a transaction that
was reverted is passed over.
-/

namespace ChainLedger

/-- A receipt says that the transaction took effect. -/
def confirmed (hash : Hash) (answer : Except Refusal (Option Receipt)) : Except Refusal Unit :=
  match answer with
  | .error r => .error r
  | .ok none => .error (.skip (.noReceipt hash))
  | .ok (some receipt) =>
    if receipt.success then .ok () else .error (.skip (.transactionReverted hash))

/-- **Goes on once the transaction is confirmed**, or at once if that is
waived. -/
def Attempt.confirm (verify : Bool) (o : Origin) (next : Attempt) : Attempt :=
  if verify then
    .check o.hash fun hash =>
    .ask (.receipt o.chain hash) fun answer =>
    .check (confirmed hash answer) fun _ => next
  else next

end ChainLedger
