import ChainLedger.Transition.Confirmation

/-!
# Claims of revenue

A claim says that one currency of a withdrawal request was paid out. It
closes every open entry that the item of that currency covers, and what the
entries held must be what the item asks for. The request is successful when
every item has been paid out.
-/

namespace ChainLedger.RevenueClaim

/-- The open request and the item of the claimed currency, or why the claim
does not apply. -/
def claimable (p : RevenueClaim) (l : Ledgers) :
    Except Refusal (WithdrawalRequest × WithdrawalItem) := do
  let request ← orRefuse (missing .withdrawalRequest p.requestId) (l.withdrawals.get? p.requestId)
  require (request.status = .requesting ∨ request.status = .processing)
    (.skip (.withdrawalIs p.requestId request.status))
  let item ← orRefuse (missing .withdrawalItem p.currency.checksummed)
    (request.items.find? (·.currency = p.currency))
  match item.txHash with
  | some done => throw (.skip (.itemClaimed p.requestId p.currency done))
  | none => return (request, item)

/-- Closes the open entries of some offerings, one after the other; `total`
is what was closed before. -/
def closeAll (p : RevenueClaim) (clock : Clock) (beneficiary : String) :
    List String → Decimal → Ledgers → Except Refusal (Decimal × Ledgers)
  | [], total, l => .ok (total, l)
  | offering :: rest, total, l => do
    let (closed, l) ← l.markWithdrawn (clock 0) beneficiary offering (some p.currency)
    let total ← orOverflow (.withdrawal p.requestId) (total.add? closed)
    closeAll p (clock.later 1) beneficiary rest total l

/-- Marks the items of a currency as paid out by a transaction. -/
def markItems (currency : Address) (txHash : String) (items : List WithdrawalItem) :
    List WithdrawalItem :=
  items.map fun i => if i.currency = currency then { i with txHash := some txHash } else i

/-- The status of a request with these items. -/
def statusOf (items : List WithdrawalItem) : WithdrawalStatus :=
  if items.all (·.txHash.isSome) then .successful else .processing

/-- The request after the claim. -/
def settled (p : RevenueClaim) (txHash : String) (r : WithdrawalRequest) : WithdrawalRequest :=
  let items := markItems p.currency txHash r.items
  { r with items := items, status := statusOf items }

/-- What is told of a request that is successful. -/
def effects (p : RevenueClaim) (r : WithdrawalRequest) : List Effect :=
  if r.status = .successful then
    [.email "withdrawal-successful" r.beneficiaryId (.obj [("requestId", .str p.requestId)]),
     .emit "withdrawal" "successful" (.obj
      [("id", .str p.requestId), ("beneficiaryId", .str r.beneficiaryId)])]
  else []

/-- The entries are closed and the item is marked. -/
def apply (p : RevenueClaim) (txHash : String) : Commit := fun clock l => do
  let (request, item) ← p.claimable l
  let (held, l) ← p.closeAll clock request.beneficiaryId item.offeringIds .zero l
  require (held.sameValue item.amount)
    (.breach (.claimMismatch p.requestId p.currency held item.amount))
  let withdrawals ← l.withdrawals.update (clock item.offeringIds.length) p.requestId
    (p.settled txHash)
  return ({ l with withdrawals := withdrawals }, p.effects (p.settled txHash request))

/-- A claim that may be applied. -/
def applicable (o : Origin) (p : RevenueClaim) (seen : Ledgers) : Except Refusal String := do
  let txHash ← o.requireTxHash
  let _ ← p.claimable seen
  return txHash

/-- **Revenue was claimed.** -/
def attempt (verify : Bool) (o : Origin) (p : RevenueClaim) (seen : Ledgers) : Attempt :=
  .check (p.applicable o seen) fun txHash =>
  .confirm verify o <|
  .commit (p.apply txHash)

end ChainLedger.RevenueClaim
