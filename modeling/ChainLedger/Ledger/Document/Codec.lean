import ChainLedger.Ledger.Document
import ChainLedger.Codec.Record

/-!
# Documents as JSON

The written form of each kind of document. A document that is written
without a watermark is taken to have been updated when it is read.
-/

namespace ChainLedger


open Codec in
/-- An asset, read at the instant `now`. -/
def Asset.codec (now : Instant) : Codec Asset :=
  record "Asset" <| (Fields.start mk).field "id" text id
    |>.field "ownerId" text ownerId
    |>.field "status" AssetStatus.codec Asset.status
    |>.field "custody" CustodyStatus.codec custody
    |>.fieldOr "updatedAt" instant Asset.updatedAt now

open Codec in
/-- A token, read at the instant `now`. -/
def Nft.codec (now : Instant) : Codec Nft :=
  record "Nft" <| (Fields.start mk).field "tokenId" text tokenId
    |>.field "assetId" text assetId
    |>.field "status" NftStatus.codec Nft.status
    |>.optional "owner" address owner
    |>.optional "fnftId" text fnftId
    |>.fieldOr "updatedAt" instant Nft.updatedAt now

open Codec in
/-- A fractional token, read at the instant `now`. -/
def Fnft.codec (now : Instant) : Codec Fnft :=
  record "Fnft" <| (Fields.start mk).field "id" text id
    |>.optional "tokenAddress" address tokenAddress
    |>.field "nftIds" (list text) nftIds
    |>.field "status" FnftStatus.codec Fnft.status
    |>.fieldOr "totalSupply" decimal Fnft.totalSupply .zero
    |>.fieldOr "availableSupply" decimal Fnft.availableSupply .zero
    |>.fieldOr "updatedAt" instant Fnft.updatedAt now

open Codec in
/-- What is known of the revenue of an offering. -/
def OfferingRevenue.codec : Codec OfferingRevenue :=
  record "OfferingRevenue" <|
    (Fields.start mk).field "status" RevenueStatus.codec OfferingRevenue.status
    |>.field "platformCommissionRate" decimal platformRate
    |>.field "bdCommissionRate" decimal bdRate
    |>.optional "finalizedBy" address finalizedBy
    |>.optional "finalizedOn" instant finalizedOn
    |>.fieldOr "approvedTransactions" (list text) approvedTransactions []
    |>.fieldOr "platformCommission" decimal platformCommission .zero

open Codec in
/-- An offering, read at the instant `now`. -/
def Offering.codec (now : Instant) : Codec Offering :=
  record "Offering" <| (Fields.start mk).field "id" text id
    |>.field "fnftId" text Offering.fnftId
    |>.field "beneficiaryId" text beneficiaryId
    |>.optional "bdId" text bdId
    |>.field "currencyContract" address currency
    |>.field "status" RecordStatus.codec Offering.status
    |>.field "onChainStatus" OnChainStatus.codec onChainStatus
    |>.field "totalSupply" decimal Offering.totalSupply
    |>.field "availableSupply" decimal Offering.availableSupply
    |>.fieldOr "soldValue" decimal soldValue .zero
    |>.field "vaultType" VaultType.codec vaultType
    |>.field "vaultUnlockThreshold" decimal unlockThreshold
    |>.field "registrationStart" instant registrationStart
    |>.field "registrationEnd" instant registrationEnd
    |>.field "participationStart" instant participationStart
    |>.field "participationEnd" instant participationEnd
    |>.field "revenue" OfferingRevenue.codec revenue
    |>.fieldOr "updatedAt" instant Offering.updatedAt now

open Codec in
/-- A purchase, read at the instant `now`. -/
def Purchase.codec (now : Instant) : Codec Purchase :=
  record "Purchase" <| (Fields.start mk).field "txHash" text txHash
    |>.field "offeringId" text offeringId
    |>.field "buyer" address buyer
    |>.field "amount" decimal amount
    |>.field "value" decimal value
    |>.fieldOr "updatedAt" instant Purchase.updatedAt now

open Codec in
/-- What a wallet bought, read at the instant `now`. -/
def WhitelistEntry.codec (now : Instant) : Codec WhitelistEntry :=
  record "WhitelistEntry" <| (Fields.start mk).field "offeringId" text offeringId
    |>.field "wallet" address wallet
    |>.fieldOr "purchasedAmount" decimal purchasedAmount .zero
    |>.fieldOr "depositedValue" decimal depositedValue .zero
    |>.fieldOr "updatedAt" instant WhitelistEntry.updatedAt now

open Codec in
/-- A balance of revenue, read at the instant `now`. -/
def RevenueEntry.codec (now : Instant) : Codec RevenueEntry :=
  record "RevenueEntry" <| (Fields.start mk).field "id" text id
    |>.field "beneficiaryId" text beneficiaryId
    |>.field "offeringId" text offeringId
    |>.field "balance" decimal balance
    |>.field "currencyContract" address currency
    |>.field "exchangeRateAtApproval" decimal rateAtApproval
    |>.field "isWithdrawn" bool isWithdrawn
    |>.fieldOr "updatedAt" instant RevenueEntry.updatedAt now

open Codec in
/-- One currency of a withdrawal request. -/
def WithdrawalItem.codec : Codec WithdrawalItem :=
  record "WithdrawalItem" <| (Fields.start mk).field "contractAddress" address currency
    |>.field "offeringIds" (list text) offeringIds
    |>.field "amount" decimal amount
    |>.optional "txHash" text txHash

open Codec in
/-- A withdrawal request, read at the instant `now`. -/
def WithdrawalRequest.codec (now : Instant) : Codec WithdrawalRequest :=
  record "WithdrawalRequest" <| (Fields.start mk).field "id" text id
    |>.field "beneficiaryId" text beneficiaryId
    |>.field "status" WithdrawalStatus.codec WithdrawalRequest.status
    |>.field "revenue" (list WithdrawalItem.codec) items
    |>.field "recipientAddress" address recipient
    |>.fieldOr "updatedAt" instant WithdrawalRequest.updatedAt now

open Codec in
/-- An administrator, read at the instant `now`. -/
def Admin.codec (now : Instant) : Codec Admin :=
  record "Admin" <| (Fields.start mk).field "wallet" address wallet
    |>.field "role" AdminRole.codec role
    |>.field "status" RecordStatus.codec Admin.status
    |>.field "onChainStatus" OnChainStatus.codec onChainStatus
    |>.fieldOr "updatedAt" instant Admin.updatedAt now

open Codec in
/-- A pool, read at the instant `now`. -/
def TieringPool.codec (now : Instant) : Codec TieringPool :=
  record "TieringPool" <| (Fields.start mk).field "poolId" text poolId
    |>.field "status" OnChainStatus.codec TieringPool.status
    |>.optional "token" address token
    |>.fieldOr "updatedAt" instant TieringPool.updatedAt now

open Codec in
/-- A stake, read at the instant `now`. -/
def StakePosition.codec (now : Instant) : Codec StakePosition :=
  record "StakePosition" <| (Fields.start mk).field "poolId" text poolId
    |>.field "account" address account
    |>.field "staked" decimal staked
    |>.fieldOr "updatedAt" instant StakePosition.updatedAt now

open Codec in
/-- A stake or unstake that was applied, read at the instant `now`. -/
def StakeReceipt.codec (now : Instant) : Codec StakeReceipt :=
  record "StakeReceipt" <| (Fields.start mk).field "txHash" text txHash
    |>.field "poolId" text poolId
    |>.field "account" address account
    |>.field "amount" decimal amount
    |>.field "direction" StakeDirection.codec direction
    |>.fieldOr "updatedAt" instant StakeReceipt.updatedAt now

end ChainLedger
