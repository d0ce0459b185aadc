import ChainLedger.Ledger.Status
import ChainLedger.Decimal.Basic
import ChainLedger.Instant.Basic
import ChainLedger.Address

/-!
# Documents

The twelve kinds of records that the ledgers hold. Each has a natural key
and the instant of its last update, its watermark; both are read through the
class `Document`, whose laws say that setting the watermark leaves the key
as it is.
-/

namespace ChainLedger

/-- A physical asset. -/
structure Asset where
  id : String
  ownerId : String
  status : AssetStatus
  custody : CustodyStatus
  updatedAt : Instant
deriving DecidableEq

/-- A token that stands for an asset. -/
structure Nft where
  tokenId : String
  assetId : String
  status : NftStatus
  owner : Option Address
  fnftId : Option String
  updatedAt : Instant
deriving DecidableEq

/-- A fractional token over some tokens. -/
structure Fnft where
  id : String
  tokenAddress : Option Address
  nftIds : List String
  status : FnftStatus
  totalSupply : Decimal
  availableSupply : Decimal
  updatedAt : Instant
deriving DecidableEq

/-- What is known of the revenue of an offering. Rates are in percent;
`approvedTransactions` are the approvals that were applied. -/
structure OfferingRevenue where
  status : RevenueStatus
  platformRate : Decimal
  bdRate : Decimal
  finalizedBy : Option Address
  finalizedOn : Option Instant
  approvedTransactions : List String
  platformCommission : Decimal
deriving DecidableEq

/-- A sale of a fractional token. -/
structure Offering where
  id : String
  fnftId : String
  beneficiaryId : String
  bdId : Option String
  currency : Address
  status : RecordStatus
  onChainStatus : OnChainStatus
  totalSupply : Decimal
  availableSupply : Decimal
  soldValue : Decimal
  vaultType : VaultType
  unlockThreshold : Decimal
  registrationStart : Instant
  registrationEnd : Instant
  participationStart : Instant
  participationEnd : Instant
  revenue : OfferingRevenue
  updatedAt : Instant
deriving DecidableEq

/-- A settled purchase, under the hash of its deposit. -/
structure Purchase where
  txHash : String
  offeringId : String
  buyer : Address
  amount : Decimal
  value : Decimal
  updatedAt : Instant
deriving DecidableEq

/-- What a wallet bought of an offering. -/
structure WhitelistEntry where
  offeringId : String
  wallet : Address
  purchasedAmount : Decimal
  depositedValue : Decimal
  updatedAt : Instant
deriving DecidableEq

/-- A balance of revenue of a beneficiary, from one offering and in one
currency. The rate is that of the currency when the entry was opened. -/
structure RevenueEntry where
  id : String
  beneficiaryId : String
  offeringId : String
  balance : Decimal
  currency : Address
  rateAtApproval : Decimal
  isWithdrawn : Bool
  updatedAt : Instant
deriving DecidableEq

/-- One currency of a withdrawal request. -/
structure WithdrawalItem where
  currency : Address
  offeringIds : List String
  amount : Decimal
  txHash : Option String
deriving DecidableEq

/-- A request of a beneficiary to withdraw revenue. -/
structure WithdrawalRequest where
  id : String
  beneficiaryId : String
  status : WithdrawalStatus
  items : List WithdrawalItem
  recipient : Address
  updatedAt : Instant
deriving DecidableEq

/-- An administrator. -/
structure Admin where
  wallet : Address
  role : AdminRole
  status : RecordStatus
  onChainStatus : OnChainStatus
  updatedAt : Instant
deriving DecidableEq

/-- A pool in which is staked. -/
structure TieringPool where
  poolId : String
  status : OnChainStatus
  token : Option Address
  updatedAt : Instant
deriving DecidableEq

/-- What an account staked in a pool. -/
structure StakePosition where
  poolId : String
  account : Address
  staked : Decimal
  updatedAt : Instant
deriving DecidableEq

/-- A stake or unstake that was applied, under its transaction hash. -/
structure StakeReceipt where
  txHash : String
  poolId : String
  account : Address
  amount : Decimal
  direction : StakeDirection
  updatedAt : Instant
deriving DecidableEq

/-- A key made of an id and an address. -/
def keyOf (id : String) (a : Address) : String :=
  id ++ ":" ++ a.checksummed

/-! ## Keys and watermarks -/

/-- A record with a natural key and a watermark. -/
class Document (α : Type) where
  /-- The name of the collection it belongs to. -/
  collection : String
  key : α → String
  updatedAt : α → Instant
  /-- The same record with another watermark. -/
  stamp : Instant → α → α
  updatedAt_stamp : ∀ t a, updatedAt (stamp t a) = t := by intros; rfl
  key_stamp : ∀ t a, key (stamp t a) = key a := by intros; rfl

instance : Document Asset where
  collection := "assets"
  key := Asset.id
  updatedAt := Asset.updatedAt
  stamp t a := { a with updatedAt := t }

instance : Document Nft where
  collection := "nfts"
  key := Nft.tokenId
  updatedAt := Nft.updatedAt
  stamp t a := { a with updatedAt := t }

instance : Document Fnft where
  collection := "fnfts"
  key := Fnft.id
  updatedAt := Fnft.updatedAt
  stamp t a := { a with updatedAt := t }

instance : Document Offering where
  collection := "offerings"
  key := Offering.id
  updatedAt := Offering.updatedAt
  stamp t a := { a with updatedAt := t }

instance : Document Purchase where
  collection := "purchases"
  key := Purchase.txHash
  updatedAt := Purchase.updatedAt
  stamp t a := { a with updatedAt := t }

instance : Document WhitelistEntry where
  collection := "whitelist"
  key a := keyOf a.offeringId a.wallet
  updatedAt := WhitelistEntry.updatedAt
  stamp t a := { a with updatedAt := t }

instance : Document RevenueEntry where
  collection := "revenue_entries"
  key := RevenueEntry.id
  updatedAt := RevenueEntry.updatedAt
  stamp t a := { a with updatedAt := t }

instance : Document WithdrawalRequest where
  collection := "withdrawal_requests"
  key := WithdrawalRequest.id
  updatedAt := WithdrawalRequest.updatedAt
  stamp t a := { a with updatedAt := t }

instance : Document Admin where
  collection := "admins"
  key a := a.wallet.checksummed
  updatedAt := Admin.updatedAt
  stamp t a := { a with updatedAt := t }

instance : Document TieringPool where
  collection := "tiering_pools"
  key := TieringPool.poolId
  updatedAt := TieringPool.updatedAt
  stamp t a := { a with updatedAt := t }

instance : Document StakePosition where
  collection := "stake_positions"
  key a := keyOf a.poolId a.account
  updatedAt := StakePosition.updatedAt
  stamp t a := { a with updatedAt := t }

instance : Document StakeReceipt where
  collection := "stake_receipts"
  key := StakeReceipt.txHash
  updatedAt := StakeReceipt.updatedAt
  stamp t a := { a with updatedAt := t }

end ChainLedger
