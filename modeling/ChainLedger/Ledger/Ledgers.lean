import ChainLedger.Ledger.Collection
import ChainLedger.Ledger.Document.Codec

/-!
# The ledgers

All collections together, and the records that administrators put into them
before any event arrives.
-/

namespace ChainLedger

/-- Every collection of documents. -/
structure Ledgers where
  assets : Collection Asset := .empty
  nfts : Collection Nft := .empty
  fnfts : Collection Fnft := .empty
  offerings : Collection Offering := .empty
  purchases : Collection Purchase := .empty
  whitelist : Collection WhitelistEntry := .empty
  revenue : Collection RevenueEntry := .empty
  withdrawals : Collection WithdrawalRequest := .empty
  admins : Collection Admin := .empty
  pools : Collection TieringPool := .empty
  stakes : Collection StakePosition := .empty
  stakeReceipts : Collection StakeReceipt := .empty
deriving DecidableEq

/-- The records that the ledgers start with. -/
structure Seed where
  assets : List Asset := []
  nfts : List Nft := []
  fnfts : List Fnft := []
  offerings : List Offering := []
  whitelist : List WhitelistEntry := []
  revenue : List RevenueEntry := []
  withdrawals : List WithdrawalRequest := []
  admins : List Admin := []
  pools : List TieringPool := []

namespace Seed

open Codec in
/-- The records of a seed, read at the instant `now`; each list may be
absent. -/
def codec (now : Instant) : Codec Seed :=
  record "Seed" <| (Fields.start mk).fieldOr "assets" (list (Asset.codec now)) assets []
    |>.fieldOr "nfts" (list (Nft.codec now)) nfts []
    |>.fieldOr "fnfts" (list (Fnft.codec now)) fnfts []
    |>.fieldOr "offerings" (list (Offering.codec now)) offerings []
    |>.fieldOr "whitelist" (list (WhitelistEntry.codec now)) whitelist []
    |>.fieldOr "revenue" (list (RevenueEntry.codec now)) revenue []
    |>.fieldOr "withdrawals" (list (WithdrawalRequest.codec now)) withdrawals []
    |>.fieldOr "admins" (list (Admin.codec now)) admins []
    |>.fieldOr "pools" (list (TieringPool.codec now)) pools []

/-- The ledgers that a seed makes. -/
def ledgers (s : Seed) : Ledgers where
  assets := .ofList s.assets
  nfts := .ofList s.nfts
  fnfts := .ofList s.fnfts
  offerings := .ofList s.offerings
  whitelist := .ofList s.whitelist
  revenue := .ofList s.revenue
  withdrawals := .ofList s.withdrawals
  admins := .ofList s.admins
  pools := .ofList s.pools

end Seed

end ChainLedger
