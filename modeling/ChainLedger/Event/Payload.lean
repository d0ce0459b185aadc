import ChainLedger.Ledger.Status
import ChainLedger.Codec.Record

/-!
# Payloads

What the sixteen kinds of events carry. Amounts of money are read from text
alone, so that every digit arrives. `Payload.reader?` finds the reader of a
kind by the name of the event.
-/

namespace ChainLedger

/-- An administrator was set. -/
structure AdminChange where
  wallet : Address
  role : AdminRole
  isActive : Bool

/-- A token. -/
structure TokenRef where
  tokenId : String

/-- A fractional token was minted. -/
structure FnftMinted where
  fnftId : String
  tokenAddress : Address

/-- A fractional token. -/
structure FnftRef where
  fnftId : String

/-- An offering, and who sent the transaction. -/
structure OfferingRef where
  offeringId : String
  sender : Option Address

/-- An asset. -/
structure AssetRef where
  assetId : String

/-- A buyer paid `value` for `amount` of an offering. -/
structure FundDeposit where
  offeringId : String
  buyer : Address
  amount : Decimal
  value : Decimal

/-- Revenue of an offering was approved. -/
structure RevenueApproval where
  offeringId : String
  amount : Decimal
  sender : Address

/-- One currency of a withdrawal request was paid out. -/
structure RevenueClaim where
  requestId : String
  currency : Address

/-- An account moved its stake in a pool. -/
structure StakeChange where
  poolId : String
  account : Address
  amount : Decimal

/-- A pool was created. -/
structure PoolCreated where
  poolId : String
  token : Option Address

/-- What an event carries. -/
inductive Payload
  | setAdmin (p : AdminChange)
  | mintNft (p : TokenRef)
  | mintFnft (p : FnftMinted)
  | createOffering (p : OfferingRef)
  | deactivateFnft (p : FnftRef)
  | deactivateOffering (p : OfferingRef)
  | depositNft (p : AssetRef)
  | deposit (p : FundDeposit)
  | mergeFnft (p : FnftRef)
  | approveRevenue (p : RevenueApproval)
  | rejectRevenue (p : OfferingRef)
  | claimRevenue (p : RevenueClaim)
  | redeemNft (p : TokenRef)
  | stake (p : StakeChange)
  | unstake (p : StakeChange)
  | createPool (p : PoolCreated)

/-! ## Reading -/

open Codec in
/-- An administrator that was set. -/
def AdminChange.codec : Codec AdminChange :=
  record "SetAdmin" <| (Fields.start mk).field "wallet" address wallet
    |>.field "role" AdminRole.codec role
    |>.field "isActive" bool isActive

open Codec in
/-- A token. -/
def TokenRef.codec : Codec TokenRef :=
  record "TokenRef" <| (Fields.start mk).field "tokenId" text tokenId

open Codec in
/-- A fractional token that was minted. -/
def FnftMinted.codec : Codec FnftMinted :=
  record "MintFnft" <| (Fields.start mk).field "fnftId" text fnftId
    |>.field "tokenAddress" address tokenAddress

open Codec in
/-- A fractional token. -/
def FnftRef.codec : Codec FnftRef :=
  record "FnftRef" <| (Fields.start mk).field "fnftId" text fnftId

open Codec in
/-- An offering. -/
def OfferingRef.codec : Codec OfferingRef :=
  record "OfferingRef" <| (Fields.start mk).field "iaoEventId" text offeringId
    |>.optional "sender" address sender

open Codec in
/-- An asset. -/
def AssetRef.codec : Codec AssetRef :=
  record "AssetRef" <| (Fields.start mk).field "assetId" text assetId

open Codec in
/-- A deposit. -/
def FundDeposit.codec : Codec FundDeposit :=
  record "FundDeposit" <| (Fields.start mk).field "iaoEventId" text offeringId
    |>.field "buyer" address buyer
    |>.field "amount" exactDecimal amount
    |>.field "value" exactDecimal value

open Codec in
/-- An approval of revenue. -/
def RevenueApproval.codec : Codec RevenueApproval :=
  record "RevenueApproval" <| (Fields.start mk).field "iaoEventId" text offeringId
    |>.field "amount" exactDecimal amount
    |>.field "sender" address sender

open Codec in
/-- A claim of revenue. -/
def RevenueClaim.codec : Codec RevenueClaim :=
  record "RevenueClaim" <| (Fields.start mk).field "requestId" text requestId
    |>.field "currencyContract" address currency

open Codec in
/-- A change of a stake. -/
def StakeChange.codec : Codec StakeChange :=
  record "StakeChange" <| (Fields.start mk).field "poolId" text poolId
    |>.field "account" address account
    |>.field "amount" exactDecimal amount

open Codec in
/-- A pool that was created. -/
def PoolCreated.codec : Codec PoolCreated :=
  record "TieringPoolCreated" <| (Fields.start mk).field "poolId" text poolId
    |>.optional "token" address token

namespace Payload

/-- A reader of what an event carries. -/
abbrev Reader := Json → Except ReadError Payload

/-- The reader that a codec gives for one kind of event. -/
def reads {α : Type} (c : Codec α) (kind : α → Payload) : Reader :=
  fun v => (c.read v).map kind

/-- **The kinds of events under their names.** -/
def readers : List (String × Reader) :=
  [("SetAdmin", reads AdminChange.codec setAdmin),
   ("MintNFT", reads TokenRef.codec mintNft),
   ("MintFNFT", reads FnftMinted.codec mintFnft),
   ("CreateIAOEvent", reads OfferingRef.codec createOffering),
   ("DeactivateFNFT", reads FnftRef.codec deactivateFnft),
   ("DeactivateIAOEvent", reads OfferingRef.codec deactivateOffering),
   ("DepositNFT", reads AssetRef.codec depositNft),
   ("Deposit", reads FundDeposit.codec deposit),
   ("MergeFNFT", reads FnftRef.codec mergeFnft),
   ("ApproveIAORevenue", reads RevenueApproval.codec approveRevenue),
   ("RejectIAORevenue", reads OfferingRef.codec rejectRevenue),
   ("ClaimRevenue", reads RevenueClaim.codec claimRevenue),
   ("RedeemNFT", reads TokenRef.codec redeemNft),
   ("Stake", reads StakeChange.codec stake),
   ("Unstake", reads StakeChange.codec unstake),
   ("CreateTieringPool", reads PoolCreated.codec createPool)]

/-- The reader of the events of a name, if they are known. -/
def reader? (event : String) : Option Reader :=
  (readers.find? (·.1 = event)).map (·.2)

/-- The name of the events of a kind. -/
def event : Payload → String
  | setAdmin _ => "SetAdmin"
  | mintNft _ => "MintNFT"
  | mintFnft _ => "MintFNFT"
  | createOffering _ => "CreateIAOEvent"
  | deactivateFnft _ => "DeactivateFNFT"
  | deactivateOffering _ => "DeactivateIAOEvent"
  | depositNft _ => "DepositNFT"
  | deposit _ => "Deposit"
  | mergeFnft _ => "MergeFNFT"
  | approveRevenue _ => "ApproveIAORevenue"
  | rejectRevenue _ => "RejectIAORevenue"
  | claimRevenue _ => "ClaimRevenue"
  | redeemNft _ => "RedeemNFT"
  | stake _ => "Stake"
  | unstake _ => "Unstake"
  | createPool _ => "CreateTieringPool"

end Payload

end ChainLedger
