import ChainLedger.Transition.Attempt

/-!
# Tokens and their assets

A token is minted once the chain knows its owner, and its asset is converted
with it. An asset enters custody when it is handed over. A token that is
redeemed takes its asset and the custody with it, for good.
-/

namespace ChainLedger

namespace TokenRef

/-- The token id of a token that is yet to be minted. -/
def mintable (p : TokenRef) (seen : Ledgers) : Except Refusal (BitVec 256) := do
  let nft ← orRefuse (missing .nft p.tokenId) (seen.nfts.get? p.tokenId)
  require (nft.status = .draft) (.skip (.nftAlready p.tokenId nft.status))
  (Quantity.tokenId p.tokenId).mapError fun f => .malformed (.badTokenId p.tokenId f)

/-- A token that the chain does not know is yet to come. -/
def ownerOr (p : TokenRef) (answer : Except Refusal Address) : Except Refusal Address :=
  match answer with
  | .error (.chain (.tokenNotExist reason)) => .error (.skip (.nftNotOnChain p.tokenId reason))
  | answer => answer

/-- The token is minted and has an owner; its asset is converted. -/
def mint (p : TokenRef) (owner : Address) : Commit := fun clock l => do
  let nft ← orRefuse (missing .nft p.tokenId) (l.nfts.get? p.tokenId)
  require (nft.status = .draft) (.skip (.nftMinted p.tokenId))
  let nfts ← l.nfts.update (clock 0) p.tokenId fun n =>
    { n with status := .minted, owner := some owner }
  let assets ← l.assets.update (clock 1) nft.assetId fun a =>
    { a with status := advance a.status .convertedToNft }
  return ({ l with nfts := nfts, assets := assets }, [])

/-- **A token was minted.** -/
def attemptMint (o : Origin) (p : TokenRef) (seen : Ledgers) : Attempt :=
  .check (p.mintable seen) fun token =>
  .ask (.owner o.chain token) fun answer =>
  .check (p.ownerOr answer) fun owner =>
  .commit (p.mint owner)

/-- A token can be redeemed. -/
def redeemable (p : TokenRef) (nft : Nft) : Except Refusal Unit :=
  match nft.status with
  | .minted => .ok ()
  | .fractionalized => .ok ()
  | .redeemed => .error (.skip (.nftRedeemed p.tokenId))
  | .draft => .error (.skip (.nftNotRedeemable p.tokenId .draft))

/-- The token, its asset and the custody are redeemed. -/
def redeem (p : TokenRef) : Commit := fun clock l => do
  let nft ← orRefuse (missing .nft p.tokenId) (l.nfts.get? p.tokenId)
  p.redeemable nft
  let nfts ← l.nfts.update (clock 0) p.tokenId fun n => { n with status := .redeemed }
  let assets ← l.assets.update (clock 1) nft.assetId fun a =>
    { a with status := advance a.status .redeemed, custody := advance a.custody .redeemed }
  return ({ l with nfts := nfts, assets := assets }, [])

/-- **A token was redeemed.** -/
def attemptRedeem (p : TokenRef) : Attempt := .commit p.redeem

end TokenRef

namespace AssetRef

/-- The asset is in custody. -/
def takeIn (p : AssetRef) : Commit := fun clock l => do
  let asset ← orRefuse (missing .asset p.assetId) (l.assets.get? p.assetId)
  require (asset.custody = .fractor ∨ asset.custody = .inReview)
    (.skip (.custodyAlready p.assetId asset.custody))
  let assets ← l.assets.update (clock 0) p.assetId fun a => { a with custody := .frac }
  return ({ l with assets := assets }, [])

/-- **An asset was handed over.** -/
def attempt (p : AssetRef) : Attempt := .commit p.takeIn

end AssetRef

end ChainLedger
