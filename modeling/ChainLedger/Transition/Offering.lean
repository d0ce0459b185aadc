import ChainLedger.Transition.Attempt

/-!
# Offerings

A draft offering goes on its chain, and its assets with it; an active one
may be deactivated; revenue that is pending may be rejected.
-/

namespace ChainLedger.OfferingRef

/-- A notification about an offering. -/
def notice (p : OfferingRef) (event : String) : Effect :=
  .emit "iao-event" event (.obj [("id", .str p.offeringId)])

/-- The tokens behind an offering. -/
def nftsOf (l : Ledgers) (o : Offering) : List String :=
  ((l.fnfts.get? o.fnftId).map (·.nftIds)).getD []

/-- The offering is on its chain, and its assets are on offer. -/
def create (p : OfferingRef) : Commit := fun clock l => do
  let offering ← orRefuse (missing .offering p.offeringId) (l.offerings.get? p.offeringId)
  require (offering.status = .active ∧ offering.onChainStatus = .draft)
    (.skip (.offeringIs p.offeringId offering.status offering.onChainStatus))
  let assetIds := l.assetsBehind (nftsOf l offering)
  let offerings ← l.offerings.update (clock 0) p.offeringId fun o =>
    { o with onChainStatus := .onChain }
  let assets ← l.assets.updateMany (clock 1) (fun a => assetIds.contains a.id) fun a =>
    { a with status := advance a.status .iaoEvent }
  return ({ l with offerings := offerings, assets := assets }, [p.notice "created"])

/-- **An offering was created.** -/
def attemptCreate (p : OfferingRef) : Attempt := .commit p.create

/-- The offering is inactive. -/
def deactivate (p : OfferingRef) : Commit := fun clock l => do
  let offering ← orRefuse (missing .offering p.offeringId) (l.offerings.get? p.offeringId)
  require (offering.status = .active) (.skip (.offeringInactive p.offeringId))
  let offerings ← l.offerings.update (clock 0) p.offeringId fun o => { o with status := .inactive }
  return ({ l with offerings := offerings }, [p.notice "deactivated"])

/-- **An offering was deactivated.** -/
def attemptDeactivate (p : OfferingRef) : Attempt := .commit p.deactivate

/-- The revenue of the offering is rejected. -/
def reject (p : OfferingRef) : Commit := fun clock l => do
  let offering ← orRefuse (missing .offering p.offeringId) (l.offerings.get? p.offeringId)
  require (offering.revenue.status = .pending)
    (.skip (.revenueNotPending p.offeringId offering.revenue.status))
  let offerings ← l.offerings.update (clock 1) p.offeringId fun o =>
    { o with
      revenue :=
        { o.revenue with
          status := .rejected, finalizedBy := p.sender
          finalizedOn := some (clock 0 p.offeringId) } }
  let mail := Effect.email "revenue-rejected" offering.beneficiaryId
    (.obj [("offeringId", .str p.offeringId)])
  return ({ l with offerings := offerings }, [mail])

/-- **The revenue of an offering was rejected.** -/
def attemptReject (p : OfferingRef) : Attempt := .commit p.reject

end ChainLedger.OfferingRef
