import ChainLedger.Transition.Admin
import ChainLedger.Transition.Token
import ChainLedger.Transition.Fraction
import ChainLedger.Transition.Offering
import ChainLedger.Transition.Purchase
import ChainLedger.Transition.Approval
import ChainLedger.Transition.Claim
import ChainLedger.Transition.Stake

/-!
# Which transition an event makes

`Event.attempt` picks the transition of an event by its payload.
-/

namespace ChainLedger

/-- **The attempt that an event makes**, from the ledgers as they are seen;
`verify` asks for receipts where money moves. -/
def Event.attempt (verify : Bool) (e : Event) (seen : Ledgers) : Attempt :=
  match e.payload with
  | .setAdmin p => p.attempt
  | .mintNft p => p.attemptMint e.origin seen
  | .mintFnft p => p.attempt e.origin seen
  | .createOffering p => p.attemptCreate
  | .deactivateFnft p => p.attemptDeactivate
  | .deactivateOffering p => p.attemptDeactivate
  | .depositNft p => p.attempt
  | .deposit p => p.attempt verify e.origin seen
  | .mergeFnft p => p.attemptMerge
  | .approveRevenue p => p.attempt e.origin seen
  | .rejectRevenue p => p.attemptReject
  | .claimRevenue p => p.attempt verify e.origin seen
  | .redeemNft p => p.attemptRedeem
  | .stake p => p.attempt .stake e.origin
  | .unstake p => p.attempt .unstake e.origin
  | .createPool p => p.attempt

end ChainLedger
