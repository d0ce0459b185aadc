import ChainLedger.Transition.Attempt

/-!
# Fractional tokens

A fractional token is minted with the supply that the chain gives it, and
the tokens and assets behind it are fractionalized with it. Deactivating it
takes them back one stage; merging it makes the assets redeemable.
-/

namespace ChainLedger

-- A power is the one of the core library, whatever other structure is in scope.
attribute [local instance (2000)] instPowNat

/-- **A supply as a decimal**: so many smallest units with so many fraction
digits, in the shortest form. -/
def supplyOf (raw decimals : Nat) : Except SupplyFault Decimal :=
  if 2 ^ (127 : Nat) ≤ raw then .error (.outOfRange raw)
  else if 28 < decimals then .error (.tooFine raw decimals)
  else
    match Decimal.ofParts? raw decimals with
    | some d => .ok d.normalize
    | none => .error (.tooLarge raw decimals)

namespace FnftMinted

/-- The fractional token is yet to be minted. -/
def mintable (p : FnftMinted) (seen : Ledgers) : Except Refusal Unit := do
  let fnft ← orRefuse (missing .fnft p.fnftId) (seen.fnfts.get? p.fnftId)
  require (fnft.status = .draft) (.skip (.fnftAlready p.fnftId fnft.status))

/-- The supply that the chain gives a fractional token. -/
def supply (answer : Except Refusal (Nat × Nat)) : Except Refusal Decimal := do
  let (raw, decimals) ← answer
  (supplyOf raw decimals).mapError fun f => .malformed (.supply f)

/-- What is told of a fractional token that was minted. -/
def effects (o : Origin) (p : FnftMinted) (supply : Decimal) : List Effect :=
  [.listCoin p.fnftId p.tokenAddress o.chain supply,
   .emit "fnft" "minted" (.obj
    [("id", .str p.fnftId), ("tokenAddress", .str p.tokenAddress.lower),
      ("totalSupply", .str supply.toText)])]

/-- The fractional token is active, and what is behind it fractionalized. -/
def mint (o : Origin) (p : FnftMinted) (supply : Decimal) : Commit := fun clock l => do
  let fnft ← orRefuse (missing .fnft p.fnftId) (l.fnfts.get? p.fnftId)
  require (fnft.status = .draft) (.skip (.fnftMinted p.fnftId))
  let assetIds := l.assetsBehind fnft.nftIds
  let fnfts ← l.fnfts.update (clock 0) p.fnftId fun f =>
    { f with
      status := .active, tokenAddress := some p.tokenAddress,
      totalSupply := supply, availableSupply := supply }
  let nfts ← l.nfts.updateMany (clock 1) (fun n => fnft.nftIds.contains n.tokenId) fun n =>
    { n with status := advance n.status .fractionalized, fnftId := some p.fnftId }
  let assets ← l.assets.updateMany (clock 2) (fun a => assetIds.contains a.id) fun a =>
    { a with status := advance a.status .fractionalized, custody := advance a.custody .frac }
  return ({ l with fnfts := fnfts, nfts := nfts, assets := assets }, p.effects o supply)

/-- **A fractional token was minted.** -/
def attempt (o : Origin) (p : FnftMinted) (seen : Ledgers) : Attempt :=
  .check (p.mintable seen) fun _ =>
  .ask (.supply o.chain p.tokenAddress) fun answer =>
  .check (supply answer) fun supply =>
  .commit (p.mint o supply)

end FnftMinted

namespace FnftRef

/-- The fractional token is inactive; its tokens and assets go back to where
they were before it. -/
def deactivate (p : FnftRef) : Commit := fun clock l => do
  let fnft ← orRefuse (missing .fnft p.fnftId) (l.fnfts.get? p.fnftId)
  require (fnft.status = .active) (.skip (.fnftNotActive p.fnftId fnft.status))
  let assetIds := l.assetsBehind fnft.nftIds
  let fnfts ← l.fnfts.update (clock 0) p.fnftId fun f => { f with status := .inactive }
  let nfts ← l.nfts.updateMany (clock 1) (fun n => fnft.nftIds.contains n.tokenId) fun n =>
    { n with status := .minted, fnftId := none }
  let assets ← l.assets.updateMany (clock 2) (fun a => assetIds.contains a.id) fun a =>
    { a with status := .convertedToNft }
  return ({ l with fnfts := fnfts, nfts := nfts, assets := assets }, [])

/-- **A fractional token was deactivated.** -/
def attemptDeactivate (p : FnftRef) : Attempt := .commit p.deactivate

/-- The fractional token is merged, and its assets can be redeemed. -/
def merge (p : FnftRef) : Commit := fun clock l => do
  let fnft ← orRefuse (missing .fnft p.fnftId) (l.fnfts.get? p.fnftId)
  require (fnft.status = .active) (.skip (.fnftNotMergeable p.fnftId fnft.status))
  let assetIds := l.assetsBehind fnft.nftIds
  let fnfts ← l.fnfts.update (clock 0) p.fnftId fun f => { f with status := .merged }
  let assets ← l.assets.updateMany (clock 1) (fun a => assetIds.contains a.id) fun a =>
    { a with custody := advance a.custody .availableForRedeem }
  return ({ l with fnfts := fnfts, assets := assets }, [])

/-- **A fractional token was merged.** -/
def attemptMerge (p : FnftRef) : Attempt := .commit p.merge

end FnftRef

end ChainLedger
