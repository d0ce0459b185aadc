import ChainLedger.Ledger.Status
import ChainLedger.Chain.Error
import ChainLedger.Hash
import ChainLedger.Trap

/-!
# Refusals

Why an event is not applied. A `Skip` says that the records are not as the
event needs them: it was applied before, it is late, or it is early. A
`Malformed` event makes no sense by itself; a `Breach` would make the
ledgers inconsistent and needs an operator; a `RateFault` leaves an approval
without an exchange rate. Beside these stand the errors of the chain and of
the store, and the traps. `Refusal.message` is the wording of each.
-/

namespace ChainLedger

/-- What a record is called where it is missing. -/
inductive Subject
  | admin
  | nft
  | fnft
  | asset
  | offering
  | tieringPool
  | withdrawalRequest
  | withdrawalItem
deriving DecidableEq, Repr

/-- The name of a kind of record. -/
def Subject.name : Subject → String
  | .admin => "admin"
  | .nft => "nft"
  | .fnft => "fnft"
  | .asset => "asset"
  | .offering => "offering"
  | .tieringPool => "tiering pool"
  | .withdrawalRequest => "withdrawal request"
  | .withdrawalItem => "withdrawal item"

/-- The event does not apply to the records as they are. -/
inductive Skip
  | missing (subject : Subject) (key : String)
  | adminInSync (key : String)
  | nftAlready (id : String) (status : NftStatus)
  | nftMinted (id : String)
  | nftNotOnChain (id reason : String)
  | nftRedeemed (id : String)
  | nftNotRedeemable (id : String) (status : NftStatus)
  | fnftAlready (id : String) (status : FnftStatus)
  | fnftMinted (id : String)
  | fnftNotActive (id : String) (status : FnftStatus)
  | fnftNotMergeable (id : String) (status : FnftStatus)
  | custodyAlready (id : String) (status : CustodyStatus)
  | offeringIs (id : String) (status : RecordStatus) (chainStatus : OnChainStatus)
  | offeringInactive (id : String)
  | offeringNotOnChain (id : String)
  | purchaseSettled (txHash : String)
  | noReceipt (hash : Hash)
  | transactionReverted (hash : Hash)
  | revenueRejected (id : String)
  | revenueNotPending (id : String) (status : RevenueStatus)
  | approvalApplied (txHash : String)
  | withdrawalIs (id : String) (status : WithdrawalStatus)
  | itemClaimed (id : String) (currency : Address) (txHash : String)
  | stakeApplied (direction : StakeDirection) (txHash : String)
  | poolNotOnChain (id : String)
  | poolOnChain (id : String)
deriving DecidableEq

/-- The wording of a skip. -/
def Skip.message : Skip → String
  | .missing s k => s.name ++ " " ++ k ++ " not found"
  | .adminInSync k => "admin " ++ k ++ " already in sync"
  | .nftAlready i s => "nft " ++ i ++ " already " ++ s.name
  | .nftMinted i => "nft " ++ i ++ " already minted"
  | .nftNotOnChain i r => "token " ++ i ++ " not on chain: " ++ r
  | .nftRedeemed i => "nft " ++ i ++ " already redeemed"
  | .nftNotRedeemable i s => "nft " ++ i ++ " is " ++ s.name ++ ", not redeemable"
  | .fnftAlready i s => "fnft " ++ i ++ " already " ++ s.name
  | .fnftMinted i => "fnft " ++ i ++ " already minted"
  | .fnftNotActive i s => "fnft " ++ i ++ " is " ++ s.name ++ ", not Active"
  | .fnftNotMergeable i s => "fnft " ++ i ++ " is " ++ s.name ++ ", cannot merge"
  | .custodyAlready i s => "asset " ++ i ++ " custody already " ++ s.name
  | .offeringIs i s c => "offering " ++ i ++ " is " ++ s.name ++ "/" ++ c.name
  | .offeringInactive i => "offering " ++ i ++ " already inactive"
  | .offeringNotOnChain i => "offering " ++ i ++ " is not on chain"
  | .purchaseSettled h => "purchase " ++ h ++ " already settled"
  | .noReceipt h => "no receipt yet for " ++ h.toText
  | .transactionReverted h => "transaction " ++ h.toText ++ " reverted"
  | .revenueRejected i => "revenue of " ++ i ++ " was rejected"
  | .revenueNotPending i s => "revenue of " ++ i ++ " is " ++ s.name ++ ", not Pending"
  | .approvalApplied h => "approval " ++ h ++ " already applied"
  | .withdrawalIs i s => "withdrawal " ++ i ++ " is " ++ s.name
  | .itemClaimed i c h =>
    "withdrawal " ++ i ++ " " ++ c.checksummed ++ " already claimed in " ++ h
  | .stakeApplied d h => d.name ++ " " ++ h ++ " already applied"
  | .poolNotOnChain i => "pool " ++ i ++ " not on chain"
  | .poolOnChain i => "pool " ++ i ++ " already on chain"

/-- Why a supply on a chain is no decimal. -/
inductive SupplyFault
  /-- It has more digits than any decimal. -/
  | outOfRange (raw : Nat)
  /-- It has more fraction digits than a decimal. -/
  | tooFine (raw decimals : Nat)
  /-- Its coefficient is too large. -/
  | tooLarge (raw decimals : Nat)
deriving DecidableEq, Repr

/-- The wording of a fault in a supply. -/
def SupplyFault.message : SupplyFault → String
  | .outOfRange raw => "supply " ++ toString raw ++ " out of range"
  | .tooFine raw d =>
    "supply " ++ toString raw ++ " with " ++ toString d ++
      " decimals: Scale exceeds the maximum precision allowed: " ++ toString d ++ " > 28"
  | .tooLarge raw d =>
    "supply " ++ toString raw ++ " with " ++ toString d ++
      " decimals: Number exceeds maximum value that can be represented."

/-- The event makes no sense by itself. -/
inductive Malformed
  | metadata (event : String) (error : ReadError)
  | noTxHash (record : String)
  | badTxHash (hash : String) (fault : Hex.Fault)
  | badTokenId (id : String) (fault : Quantity.Fault)
  | supply (fault : SupplyFault)
  | depositAmounts (txHash : String) (amount value : Decimal)
  | approvalAmount (txHash : String) (amount : Decimal)
  | stakeAmount (direction : StakeDirection) (txHash : String) (amount : Decimal)

/-- The wording of a malformed event. -/
def Malformed.message : Malformed → String
  | .metadata e r => e ++ " metadata: " ++ r.message
  | .noTxHash r => "record " ++ r ++ " has no transactionHash"
  | .badTxHash h f => "bad transactionHash " ++ h ++ ": " ++ f.message
  | .badTokenId i f => "token id " ++ i ++ ": " ++ f.longMessage
  | .supply f => f.message
  | .depositAmounts h a v =>
    "deposit " ++ h ++ ": amount " ++ a.toText ++ " value " ++ v.toText
  | .approvalAmount h a => "approval " ++ h ++ ": amount " ++ a.toText
  | .stakeAmount d h a => d.name ++ " " ++ h ++ ": amount " ++ a.toText

/-- A quantity that may leave the decimal range. -/
inductive Balance
  | soldValue (offering : String)
  | whitelist (key : String)
  | stake (account : Address) (pool : String)
  | entry (id : String)
  | openRevenue (beneficiary offering : String)
  | share (rate amount : Decimal)
  | platformShare (amount : Decimal)
  | ownerShare (amount : Decimal)
  | platformCommission (offering : String)
  | withdrawal (id : String)
deriving DecidableEq

/-- The name of a balance in a message. -/
def Balance.name : Balance → String
  | .soldValue o => "sold value of " ++ o
  | .whitelist k => "whitelist entry " ++ k
  | .stake a p => "stake of " ++ a.checksummed ++ " in " ++ p
  | .entry i => "revenue entry " ++ i
  | .openRevenue b o => "open revenue of " ++ b ++ " on " ++ o
  | .share r a => r.toText ++ "% of revenue " ++ a.toText
  | .platformShare a => "platform share of revenue " ++ a.toText
  | .ownerShare a => "owner share of revenue " ++ a.toText
  | .platformCommission o => "platform commission of " ++ o
  | .withdrawal i => "withdrawal " ++ i ++ " total"

/-- The ledgers would become inconsistent. -/
inductive Breach
  | overflow (balance : Balance)
  | depositExceedsOffering (txHash : String) (amount : Decimal) (id : String) (available : Decimal)
  | depositExceedsFnft (txHash : String) (amount : Decimal) (id : String) (available : Decimal)
  | badSplit (amount platformRate bdRate owner : Decimal)
  | revenueNotPositive (amount : Decimal) (beneficiary offering : String)
  | unstakeExceeds (txHash : String) (amount staked : Decimal) (pool : String)
  | claimMismatch (id : String) (currency : Address) (held asked : Decimal)
deriving DecidableEq

/-- The wording of a breach. -/
def Breach.message : Breach → String
  | .overflow b => b.name ++ " overflows the decimal range"
  | .depositExceedsOffering h a i v =>
    "deposit " ++ h ++ " of " ++ a.toText ++ " exceeds offering " ++ i ++ " available " ++ v.toText
  | .depositExceedsFnft h a i v =>
    "deposit " ++ h ++ " of " ++ a.toText ++ " exceeds fnft " ++ i ++ " available " ++ v.toText
  | .badSplit a p b o =>
    "revenue split of " ++ a.toText ++ " at " ++ p.toText ++ "%/" ++ b.toText ++ "% gives owner "
      ++ o.toText
  | .revenueNotPositive a b o => "non-positive revenue " ++ a.toText ++ " for " ++ b ++ " on " ++ o
  | .unstakeExceeds h a s p =>
    "unstake " ++ h ++ " of " ++ a.toText ++ " exceeds " ++ s.toText ++ " staked in " ++ p
  | .claimMismatch i c h a =>
    "withdrawal " ++ i ++ " " ++ c.checksummed ++ ": ledger holds " ++ h.toText
      ++ ", request asks " ++ a.toText

/-- Why there is no exchange rate. -/
inductive RateFault
  | badCurrency (key : String) (fault : Hex.Fault)
  | notPositive (rate : Decimal) (currency : Address)
  | unknown (currency : Address)
deriving DecidableEq

/-- The wording of a missing rate. -/
def RateFault.message : RateFault → String
  | .badCurrency k f => "bad currency address " ++ k ++ ": " ++ f.message
  | .notPositive r c => "non-positive rate " ++ r.toText ++ " for " ++ c.checksummed
  | .unknown c => "no rate for " ++ c.checksummed

/-- Why the store did not write. -/
inductive StoreError
  | duplicateKey (collection key : String)
  | notFound (collection key : String)
  /-- The document changed since its watermark was read. -/
  | conflict (collection key : String)
deriving DecidableEq, Repr

/-- The wording of a store error. -/
def StoreError.message : StoreError → String
  | .duplicateKey c k => "duplicate key " ++ k ++ " in " ++ c
  | .notFound c k => k ++ " not found in " ++ c
  | .conflict c k => "concurrent update of " ++ k ++ " in " ++ c

/-- Why an event is not applied. -/
inductive Refusal
  | skip (reason : Skip)
  | malformed (fault : Malformed)
  | breach (fault : Breach)
  | rate (fault : RateFault)
  | chain (error : ChainError)
  | store (error : StoreError)
  | trap (trap : Trap)

namespace Refusal

/-- The wording of a refusal. -/
def message : Refusal → String
  | .skip r => "precondition failed: " ++ r.message
  | .malformed f => "malformed event: " ++ f.message
  | .breach f => "invariant violated: " ++ f.message
  | .rate f => "exchange rate unavailable: " ++ f.message
  | .chain e => e.message
  | .store e => e.message
  | .trap t => "handler panicked: " ++ t.message

/-- The refusal needs an operator. -/
def isFatal : Refusal → Bool
  | .breach _ => true
  | _ => false

/-- The refusal may go away if the event is tried again at once. -/
def isRetryable : Refusal → Bool
  | .store (.conflict _ _) => true
  | _ => false

end Refusal

/-- A condition that must hold, or the refusal if it does not. -/
def require (p : Prop) [Decidable p] (r : Refusal) : Except Refusal Unit :=
  if p then .ok () else .error r

/-- What must be there, or the refusal if it is not. -/
def orRefuse {α : Type} (r : Refusal) : Option α → Except Refusal α
  | some a => .ok a
  | none => .error r

/-- The result of a partial decimal operation, or a breach of a balance. -/
def orOverflow (balance : Balance) : Option Decimal → Except Refusal Decimal
  | some d => .ok d
  | none => .error (.breach (.overflow balance))

/-- The result of an operation whose result is taken to exist. -/
def trapped {α : Type} (x : Except Trap α) : Except Refusal α :=
  x.mapError .trap

end ChainLedger
