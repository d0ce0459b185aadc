import ChainLedger.Codec.Basic

/-!
# Statuses

The statuses of the records, by name. Assets, their custody and tokens move
along pipelines: `advance` moves a status forward to another one and leaves
it where it is if that is not ahead.
-/

namespace ChainLedger

/-- Statuses with a place in a pipeline. -/
class Pipeline (α : Type) where
  /-- The place of a status. -/
  place : α → Nat

/-- The status `next` is ahead of `current`. -/
def ahead {α : Type} [Pipeline α] (current next : α) : Bool :=
  Pipeline.place current < Pipeline.place next

/-- **Moves a status forward**, never back. -/
def advance {α : Type} [Pipeline α] (current next : α) : α :=
  if ahead current next then next else current

/-- Whether a record is in use. -/
inductive RecordStatus
  | active
  | inactive
deriving DecidableEq, Repr

namespace RecordStatus

/-- The name of a value. -/
def name : RecordStatus → String
  | .active => "Active"
  | .inactive => "Inactive"

/-- A value as its name. -/
def codec : Codec RecordStatus :=
  Codec.oneOf ([active, inactive].map fun a => (a.name, a)) name

end RecordStatus

/-- Whether a record has come into being on its chain. -/
inductive OnChainStatus
  | draft
  | onChain
deriving DecidableEq, Repr

namespace OnChainStatus

/-- The name of a value. -/
def name : OnChainStatus → String
  | .draft => "Draft"
  | .onChain => "OnChain"

/-- A value as its name. -/
def codec : Codec OnChainStatus :=
  Codec.oneOf ([draft, onChain].map fun a => (a.name, a)) name

end OnChainStatus

/-- Whether an offering fails if too little of it is sold. -/
inductive VaultType
  | vault
  | nonVault
deriving DecidableEq, Repr

namespace VaultType

/-- The name of a value. -/
def name : VaultType → String
  | .vault => "Vault"
  | .nonVault => "NonVault"

/-- A value as its name. -/
def codec : Codec VaultType :=
  Codec.oneOf ([vault, nonVault].map fun a => (a.name, a)) name

end VaultType

/-- The pipeline of an asset. -/
inductive AssetStatus
  | opened
  | iaoApproved
  | convertedToNft
  | fractionalized
  | iaoEvent
  | redeemed
deriving DecidableEq, Repr

namespace AssetStatus

/-- The name of a value. -/
def name : AssetStatus → String
  | .opened => "Open"
  | .iaoApproved => "IaoApproved"
  | .convertedToNft => "ConvertedToNft"
  | .fractionalized => "Fractionalized"
  | .iaoEvent => "IaoEvent"
  | .redeemed => "Redeemed"

instance : Pipeline AssetStatus where
  place
    | .opened => 0
    | .iaoApproved => 1
    | .convertedToNft => 2
    | .fractionalized => 3
    | .iaoEvent => 4
    | .redeemed => 5

/-- A value as its name. -/
def codec : Codec AssetStatus :=
  Codec.oneOf
    ([opened, iaoApproved, convertedToNft, fractionalized, iaoEvent, redeemed].map
      fun a => (a.name, a))
    name

end AssetStatus

/-- The pipeline of the custody of an asset. -/
inductive CustodyStatus
  | fractor
  | inReview
  | frac
  | availableForRedeem
  | redeemed
deriving DecidableEq, Repr

namespace CustodyStatus

/-- The name of a value. -/
def name : CustodyStatus → String
  | .fractor => "Fractor"
  | .inReview => "InReview"
  | .frac => "Frac"
  | .availableForRedeem => "AvailableForRedeem"
  | .redeemed => "Redeemed"

instance : Pipeline CustodyStatus where
  place
    | .fractor => 0
    | .inReview => 1
    | .frac => 2
    | .availableForRedeem => 3
    | .redeemed => 4

/-- A value as its name. -/
def codec : Codec CustodyStatus :=
  Codec.oneOf
    ([fractor, inReview, frac, availableForRedeem, redeemed].map fun a => (a.name, a))
    name

end CustodyStatus

/-- The pipeline of a token that stands for an asset. -/
inductive NftStatus
  | draft
  | minted
  | fractionalized
  | redeemed
deriving DecidableEq, Repr

namespace NftStatus

/-- The name of a value. -/
def name : NftStatus → String
  | .draft => "Draft"
  | .minted => "Minted"
  | .fractionalized => "Fractionalized"
  | .redeemed => "Redeemed"

instance : Pipeline NftStatus where
  place
    | .draft => 0
    | .minted => 1
    | .fractionalized => 2
    | .redeemed => 3

/-- A value as its name. -/
def codec : Codec NftStatus :=
  Codec.oneOf ([draft, minted, fractionalized, redeemed].map fun a => (a.name, a)) name

end NftStatus

/-- The life of a fractional token. -/
inductive FnftStatus
  | draft
  | active
  | inactive
  | merged
deriving DecidableEq, Repr

namespace FnftStatus

/-- The name of a value. -/
def name : FnftStatus → String
  | .draft => "Draft"
  | .active => "Active"
  | .inactive => "Inactive"
  | .merged => "Merged"

/-- A value as its name. -/
def codec : Codec FnftStatus :=
  Codec.oneOf ([draft, active, inactive, merged].map fun a => (a.name, a)) name

end FnftStatus

/-- What became of the revenue of an offering. -/
inductive RevenueStatus
  | pending
  | approved
  | rejected
deriving DecidableEq, Repr

namespace RevenueStatus

/-- The name of a value. -/
def name : RevenueStatus → String
  | .pending => "Pending"
  | .approved => "Approved"
  | .rejected => "Rejected"

/-- A value as its name. -/
def codec : Codec RevenueStatus :=
  Codec.oneOf ([pending, approved, rejected].map fun a => (a.name, a)) name

end RevenueStatus

/-- The life of a withdrawal request. -/
inductive WithdrawalStatus
  | requesting
  | processing
  | successful
  | canceled
  | rejected
deriving DecidableEq, Repr

namespace WithdrawalStatus

/-- The name of a value. -/
def name : WithdrawalStatus → String
  | .requesting => "Requesting"
  | .processing => "Processing"
  | .successful => "Successful"
  | .canceled => "Canceled"
  | .rejected => "Rejected"

/-- A value as its name. -/
def codec : Codec WithdrawalStatus :=
  Codec.oneOf
    ([requesting, processing, successful, canceled, rejected].map fun a => (a.name, a))
    name

end WithdrawalStatus

/-- What an administrator may do. -/
inductive AdminRole
  | superAdmin
  | operationAdmin
  | headOfBd
  | fractorBd
  | masterBd
deriving DecidableEq, Repr

namespace AdminRole

/-- The name of a value. -/
def name : AdminRole → String
  | .superAdmin => "SuperAdmin"
  | .operationAdmin => "OperationAdmin"
  | .headOfBd => "HeadOfBd"
  | .fractorBd => "FractorBd"
  | .masterBd => "MasterBd"

/-- A value as its name. -/
def codec : Codec AdminRole :=
  Codec.oneOf
    ([superAdmin, operationAdmin, headOfBd, fractorBd, masterBd].map fun a => (a.name, a))
    name

end AdminRole

/-- Which way a stake moves. -/
inductive StakeDirection
  | stake
  | unstake
deriving DecidableEq, Repr

namespace StakeDirection

/-- The name of a value. -/
def name : StakeDirection → String
  | .stake => "Stake"
  | .unstake => "Unstake"

/-- A value as its name. -/
def codec : Codec StakeDirection :=
  Codec.oneOf ([stake, unstake].map fun a => (a.name, a)) name

end StakeDirection

end ChainLedger
