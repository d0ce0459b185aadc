import ChainLedger.Proofs.Ledger.Evolution
import ChainLedger.Transition.Token
import ChainLedger.Transition.Fraction

/-!
# What commits do to tokens and assets

For each commit about tokens, assets and fractional tokens: what it found,
what it wrote, and that the ledgers it leaves are later ones.
-/

namespace ChainLedger

variable {l l' : Ledgers} {clock : Clock} {fx : List Effect}

/-- A status that is advanced does not fall behind. -/
theorem place_le_advance {α : Type} [Pipeline α] (current next : α) :
    Pipeline.place current ≤ Pipeline.place (advance current next) := by
  unfold advance ahead
  split
  · next h => exact Nat.le_of_lt (by simpa using h)
  · exact Nat.le_refl _

/-- A token that is advanced to be fractionalized is no draft. -/
theorem advance_fractionalized_ne_draft (s : NftStatus) :
    advance s .fractionalized ≠ NftStatus.draft := by
  cases s <;> decide

namespace TokenRef

variable {p : TokenRef} {owner : Address}

theorem of_mint (h : p.mint owner clock l = .ok (l', fx)) :
    ∃ nft nfts assets, l.nfts.get? p.tokenId = some nft ∧ nft.status = .draft ∧
      l.nfts.update (clock 0) p.tokenId
        (fun n => { n with status := .minted, owner := some owner }) = .ok nfts ∧
      l.assets.update (clock 1) nft.assetId
        (fun a => { a with status := advance a.status .convertedToNft }) = .ok assets ∧
      l' = { l with nfts := nfts, assets := assets } ∧ fx = [] := by
  simp only [mint, bind_eq_ok, orRefuse_eq_ok, require_eq_ok, pure_eq_ok, Prod.mk.injEq] at h
  obtain ⟨nft, hnft, -, hdraft, nfts, hnfts, assets, hassets, rfl, rfl⟩ := h
  exact ⟨nft, nfts, assets, hnft, hdraft, hnfts, hassets, rfl, rfl⟩

theorem follows_mint (h : p.mint owner clock l = .ok (l', fx)) : l.Follows l' := by
  obtain ⟨nft, nfts, assets, -, -, hnfts, hassets, rfl, -⟩ := of_mint h
  have hn := Collection.revises_update hnfts Later.refl fun n t _ ht =>
    .of_stamp ht ⟨rfl, rfl, nofun⟩
  have ha := Collection.revises_update hassets Later.refl fun a t _ ht =>
    .of_stamp ht ⟨rfl, rfl, Nat.le_refl _⟩
  exact { Ledgers.Follows.refl l with nfts := hn, assets := ha }

theorem of_redeem (h : p.redeem clock l = .ok (l', fx)) :
    ∃ nft nfts assets, l.nfts.get? p.tokenId = some nft ∧
      (nft.status = .minted ∨ nft.status = .fractionalized) ∧
      l.nfts.update (clock 0) p.tokenId (fun n => { n with status := .redeemed }) = .ok nfts ∧
      l.assets.update (clock 1) nft.assetId (fun a =>
        { a with status := advance a.status .redeemed, custody := advance a.custody .redeemed }) =
          .ok assets ∧
      l' = { l with nfts := nfts, assets := assets } ∧ fx = [] := by
  simp only [redeem, bind_eq_ok, orRefuse_eq_ok, pure_eq_ok, Prod.mk.injEq] at h
  obtain ⟨nft, hnft, ⟨⟩, hstatus, nfts, hnfts, assets, hassets, rfl, rfl⟩ := h
  refine ⟨nft, nfts, assets, hnft, ?_, hnfts, hassets, rfl, rfl⟩
  cases hs : nft.status <;> simp [redeemable, hs] at hstatus ⊢

theorem follows_redeem (h : p.redeem clock l = .ok (l', fx)) : l.Follows l' := by
  obtain ⟨nft, nfts, assets, -, -, hnfts, hassets, rfl, -⟩ := of_redeem h
  have hn := Collection.revises_update hnfts Later.refl fun n t _ ht =>
    .of_stamp ht ⟨rfl, rfl, nofun⟩
  have ha := Collection.revises_update hassets Later.refl fun a t _ ht =>
    .of_stamp ht ⟨rfl, rfl, place_le_advance _ _⟩
  exact { Ledgers.Follows.refl l with nfts := hn, assets := ha }

end TokenRef

namespace AssetRef

variable {p : AssetRef}

theorem of_takeIn (h : p.takeIn clock l = .ok (l', fx)) :
    ∃ asset assets, l.assets.get? p.assetId = some asset ∧
      (asset.custody = .fractor ∨ asset.custody = .inReview) ∧
      l.assets.update (clock 0) p.assetId (fun a => { a with custody := .frac }) = .ok assets ∧
      l' = { l with assets := assets } ∧ fx = [] := by
  simp only [takeIn, bind_eq_ok, orRefuse_eq_ok, require_eq_ok, pure_eq_ok, Prod.mk.injEq] at h
  obtain ⟨asset, hasset, -, hcustody, assets, hassets, rfl, rfl⟩ := h
  exact ⟨asset, assets, hasset, hcustody, hassets, rfl, rfl⟩

theorem follows_takeIn (h : p.takeIn clock l = .ok (l', fx)) : l.Follows l' := by
  obtain ⟨asset, assets, hasset, hcustody, hassets, rfl, -⟩ := of_takeIn h
  have ha := Collection.revises_update hassets Later.refl fun a t hget ht => by
    obtain rfl := Option.some.inj (hasset.symm.trans hget)
    refine .of_stamp ht ⟨rfl, rfl, ?_⟩
    show Pipeline.place asset.custody ≤ Pipeline.place CustodyStatus.frac
    rcases hcustody with hc | hc <;> rw [hc] <;> decide
  exact { Ledgers.Follows.refl l with assets := ha }

end AssetRef

/-! ## Fractional tokens -/

namespace FnftMinted

variable {o : Origin} {p : FnftMinted} {supply : Decimal}

theorem of_mint (h : p.mint o supply clock l = .ok (l', fx)) :
    ∃ fnft fnfts nfts assets, l.fnfts.get? p.fnftId = some fnft ∧ fnft.status = .draft ∧
      l.fnfts.update (clock 0) p.fnftId (fun f =>
        { f with
          status := .active, tokenAddress := some p.tokenAddress,
          totalSupply := supply, availableSupply := supply }) = .ok fnfts ∧
      l.nfts.updateMany (clock 1) (fun n => fnft.nftIds.contains n.tokenId) (fun n =>
        { n with status := advance n.status .fractionalized, fnftId := some p.fnftId }) =
          .ok nfts ∧
      l.assets.updateMany (clock 2) (fun a => (l.assetsBehind fnft.nftIds).contains a.id) (fun a =>
        { a with status := advance a.status .fractionalized,
                 custody := advance a.custody .frac }) = .ok assets ∧
      l' = { l with fnfts := fnfts, nfts := nfts, assets := assets } ∧
      fx = p.effects o supply := by
  simp only [mint, bind_eq_ok, orRefuse_eq_ok, require_eq_ok, pure_eq_ok, Prod.mk.injEq] at h
  obtain ⟨fnft, hfnft, -, hdraft, fnfts, hfnfts, nfts, hnfts, assets, hassets, rfl, rfl⟩ := h
  exact ⟨fnft, fnfts, nfts, assets, hfnft, hdraft, hfnfts, hnfts, hassets, rfl, rfl⟩

theorem follows_mint (h : p.mint o supply clock l = .ok (l', fx)) : l.Follows l' := by
  obtain ⟨fnft, fnfts, nfts, assets, hfnft, hdraft, hfnfts, hnfts, hassets, rfl, -⟩ := of_mint h
  have hf := Collection.revises_update hfnfts Later.refl fun f t hget ht => by
    obtain rfl := Option.some.inj (hfnft.symm.trans hget)
    exact .of_stamp ht (.of_not_closed rfl rfl (by rw [hdraft]; rfl) nofun)
  have hn := Collection.revises_updateMany hnfts Later.refl fun n t _ ht =>
    .of_stamp ht ⟨rfl, rfl, advance_fractionalized_ne_draft _⟩
  have ha := Collection.revises_updateMany hassets Later.refl fun a t _ ht =>
    .of_stamp ht ⟨rfl, rfl, place_le_advance _ _⟩
  exact { Ledgers.Follows.refl l with fnfts := hf, nfts := hn, assets := ha }

end FnftMinted

namespace FnftRef

variable {p : FnftRef}

theorem of_deactivate (h : p.deactivate clock l = .ok (l', fx)) :
    ∃ fnft fnfts nfts assets, l.fnfts.get? p.fnftId = some fnft ∧ fnft.status = .active ∧
      l.fnfts.update (clock 0) p.fnftId (fun f => { f with status := .inactive }) = .ok fnfts ∧
      l.nfts.updateMany (clock 1) (fun n => fnft.nftIds.contains n.tokenId) (fun n =>
        { n with status := .minted, fnftId := none }) = .ok nfts ∧
      l.assets.updateMany (clock 2) (fun a => (l.assetsBehind fnft.nftIds).contains a.id) (fun a =>
        { a with status := .convertedToNft }) = .ok assets ∧
      l' = { l with fnfts := fnfts, nfts := nfts, assets := assets } ∧ fx = [] := by
  simp only [deactivate, bind_eq_ok, orRefuse_eq_ok, require_eq_ok, pure_eq_ok,
    Prod.mk.injEq] at h
  obtain ⟨fnft, hfnft, -, hactive, fnfts, hfnfts, nfts, hnfts, assets, hassets, rfl, rfl⟩ := h
  exact ⟨fnft, fnfts, nfts, assets, hfnft, hactive, hfnfts, hnfts, hassets, rfl, rfl⟩

theorem follows_deactivate (h : p.deactivate clock l = .ok (l', fx)) : l.Follows l' := by
  obtain ⟨fnft, fnfts, nfts, assets, hfnft, hactive, hfnfts, hnfts, hassets, rfl, -⟩ :=
    of_deactivate h
  have hf := Collection.revises_update hfnfts Later.refl fun f t hget ht => by
    obtain rfl := Option.some.inj (hfnft.symm.trans hget)
    exact .of_stamp ht (.of_not_closed rfl rfl (by rw [hactive]; rfl) nofun)
  have hn := Collection.revises_updateMany hnfts Later.refl fun n t _ ht =>
    .of_stamp ht ⟨rfl, rfl, nofun⟩
  have ha := Collection.revises_updateMany hassets Later.refl fun a t _ ht =>
    .of_stamp ht ⟨rfl, rfl, Nat.le_refl _⟩
  exact { Ledgers.Follows.refl l with fnfts := hf, nfts := hn, assets := ha }

theorem of_merge (h : p.merge clock l = .ok (l', fx)) :
    ∃ fnft fnfts assets, l.fnfts.get? p.fnftId = some fnft ∧ fnft.status = .active ∧
      l.fnfts.update (clock 0) p.fnftId (fun f => { f with status := .merged }) = .ok fnfts ∧
      l.assets.updateMany (clock 1) (fun a => (l.assetsBehind fnft.nftIds).contains a.id) (fun a =>
        { a with custody := advance a.custody .availableForRedeem }) = .ok assets ∧
      l' = { l with fnfts := fnfts, assets := assets } ∧ fx = [] := by
  simp only [merge, bind_eq_ok, orRefuse_eq_ok, require_eq_ok, pure_eq_ok, Prod.mk.injEq] at h
  obtain ⟨fnft, hfnft, -, hactive, fnfts, hfnfts, assets, hassets, rfl, rfl⟩ := h
  exact ⟨fnft, fnfts, assets, hfnft, hactive, hfnfts, hassets, rfl, rfl⟩

theorem follows_merge (h : p.merge clock l = .ok (l', fx)) : l.Follows l' := by
  obtain ⟨fnft, fnfts, assets, hfnft, hactive, hfnfts, hassets, rfl, -⟩ := of_merge h
  have hf := Collection.revises_update hfnfts Later.refl fun f t hget ht => by
    obtain rfl := Option.some.inj (hfnft.symm.trans hget)
    exact .of_stamp ht (.of_not_closed rfl rfl (by rw [hactive]; rfl) nofun)
  have ha := Collection.revises_updateMany hassets Later.refl fun a t _ ht =>
    .of_stamp ht ⟨rfl, rfl, place_le_advance _ _⟩
  exact { Ledgers.Follows.refl l with fnfts := hf, assets := ha }

end FnftRef

end ChainLedger
