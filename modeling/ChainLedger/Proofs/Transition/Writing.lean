import ChainLedger.Proofs.Transition.Route

/-!
# What events write to documents with a status

An event may write to several collections at once: to a fractional token, to
the tokens that it lists, and to the assets behind them. `Payload.Writes` says
for each kind of event which of the documents with a status it writes, what it
found of them, and what it writes; every event that is applied writes that and
nothing else (`Event.Changes.writes`). What is proved about statuses and
supplies is read off it, one case per kind.
-/

namespace ChainLedger

/-! ## Rewriting documents -/

/-- Something that is written to the documents under some keys. -/
structure Rewrite (α : Type) where
  keys : List String := []
  write : α → α := id

namespace Collection

variable {α : Type} [Document α] {w : Rewrite α} {R : α → α → Prop} {c c' : Collection α}
  {k key : String} {keys : List String} {now : Readings} {f : α → α}

/-- **The documents under some keys were written**, and all others are as they
were. -/
def Rewrites (w : Rewrite α) (c c' : Collection α) : Prop :=
  ∀ k, Option.Rel
    (fun a b => if k ∈ w.keys then ∃ t, b = Document.stamp t (w.write a) else b = a)
    (c.get? k) (c'.get? k)

omit [Document α] in
/-- Under the only key is what was found there. -/
theorem eq_of_mem_singleton {a b : α} (ha : c.get? key = some a) (hk : k ∈ [key])
    (hb : c.get? k = some b) : b = a := by
  rw [List.mem_singleton.mp hk] at hb
  exact Option.some.inj (hb.symm.trans ha)

/-- Nothing is written to a collection that stays. -/
theorem Rewrites.refl (c : Collection α) : Rewrites {} c c := by
  intro k
  cases c.get? k with
  | none => exact .none
  | some a => exact .some (by simp)

theorem rewrites_update (h : c.update now key f = .ok c') : Rewrites ⟨[key], f⟩ c c' := by
  intro k
  refine (rel_update h k).imp fun a b _ hab => ?_
  by_cases hk : key = k
  · rw [if_pos hk] at hab
    obtain ⟨t, -, rfl⟩ := hab
    rw [if_pos (List.mem_singleton.mpr hk.symm)]
    exact ⟨t, rfl⟩
  · rw [if_neg hk] at hab
    rwa [if_neg fun hmem => hk (List.mem_singleton.mp hmem).symm]

/-- An update of the documents with some keys finds them under these. -/
theorem rewrites_updateMany (hc : c.Keyed)
    (h : c.updateMany now (fun a => keys.contains (Document.key a)) f = .ok c') :
    Rewrites ⟨keys, f⟩ c c' := by
  intro k
  refine (rel_updateMany h k).imp fun a b ha hab => ?_
  simp only [hc k a ha, List.contains_iff_mem] at hab
  split at hab
  · next hk =>
    obtain ⟨t, -, rfl⟩ := hab
    rw [if_pos hk]
    exact ⟨t, rfl⟩
  · next hk => rwa [if_neg hk]

namespace Rewrites

/-- The documents under the keys are written. -/
theorem rel_of_mem (h : Rewrites w c c') (hk : k ∈ w.keys) :
    Option.Rel (fun a b => ∃ t, b = Document.stamp t (w.write a)) (c.get? k) (c'.get? k) := by
  refine (h k).imp fun a b _ hab => ?_
  rwa [if_pos hk] at hab

/-- What holds of a document that was written. -/
theorem holds {P : α → Prop} {a : α} (h : Rewrites w c c') (hk : k ∈ w.keys)
    (ha : c.get? k = some a) (hP : ∀ t, P (Document.stamp t (w.write a))) : c'.Holds k P := by
  obtain ⟨b, hb, t, rfl⟩ := (ha ▸ h.rel_of_mem hk).of_some
  exact ⟨_, hb, hP t⟩

/-- The documents under other keys stay. -/
theorem get?_of_not_mem (h : Rewrites w c c') (hk : k ∉ w.keys) : c'.get? k = c.get? k := by
  have hrel := h k
  generalize c.get? k = x, c'.get? k = y at hrel
  cases hrel with
  | none => rfl
  | some hab => rw [if_neg hk] at hab; rw [hab]

/-- **What becomes of the document under a key**: it is written, or it stays. -/
theorem rel (h : Rewrites w c c') (k : String) (hstay : k ∉ w.keys → ∀ a, R a a)
    (hwrite : k ∈ w.keys → ∀ a t, c.get? k = some a → R a (Document.stamp t (w.write a))) :
    Option.Rel R (c.get? k) (c'.get? k) := by
  refine (h k).imp fun a b ha hab => ?_
  split at hab
  · next hk =>
    obtain ⟨t, rfl⟩ := hab
    exact hwrite hk a t ha
  · next hk => exact hab ▸ hstay hk a

/-- A collection that is rewritten is revised. -/
theorem revises (h : Rewrites w c c') (hstay : ∀ a, R a a)
    (hwrite : ∀ k ∈ w.keys, ∀ a t, c.get? k = some a → R a (Document.stamp t (w.write a))) :
    Revises R c c' :=
  .of_rel fun k => h.rel k (fun _ => hstay) (hwrite k)

end Rewrites

end Collection

/-! ## Writings -/

/-- **What an event writes** to the documents with a status. -/
structure Writing where
  fnfts : Rewrite Fnft := {}
  nfts : Rewrite Nft := {}
  assets : Rewrite Asset := {}
  offerings : Rewrite Offering := {}
  withdrawals : Rewrite WithdrawalRequest := {}
  pools : Rewrite TieringPool := {}

/-- The ledgers before and after what was written. -/
structure Writing.Between (w : Writing) (l l' : Ledgers) : Prop where
  fnfts : Collection.Rewrites w.fnfts l.fnfts l'.fnfts
  nfts : Collection.Rewrites w.nfts l.nfts l'.nfts
  assets : Collection.Rewrites w.assets l.assets l'.assets
  offerings : Collection.Rewrites w.offerings l.offerings l'.offerings
  withdrawals : Collection.Rewrites w.withdrawals l.withdrawals l'.withdrawals
  pools : Collection.Rewrites w.pools l.pools l'.pools

/-- Nothing is written to ledgers that stay. -/
theorem Writing.between_refl (l : Ledgers) : Writing.Between {} l l :=
  ⟨.refl _, .refl _, .refl _, .refl _, .refl _, .refl _⟩

/-- The assets behind some tokens are those that the tokens name. -/
theorem Ledgers.mem_assetsBehind {l : Ledgers} {ids : List String} {id : String} :
    id ∈ l.assetsBehind ids ↔ ∃ k ∈ ids, ∃ n, l.nfts.get? k = some n ∧ n.assetId = id := by
  simp only [assetsBehind, List.mem_filterMap, Option.map_eq_some_iff]

/-- The kinds of events that write to no document with a status. -/
def Payload.isAside : Payload → Bool
  | .setAdmin _ => true
  | .stake _ => true
  | .unstake _ => true
  | _ => false

/-- **What an event of a kind writes** to the documents with a status, and
what it found of them. -/
inductive Payload.Writes (l : Ledgers) : Payload → Writing → Prop
  | mintNft {p nft owner} (hnft : l.nfts.get? p.tokenId = some nft) (hdraft : nft.status = .draft) :
      Writes l (.mintNft p)
        { nfts := ⟨[p.tokenId], fun n => { n with status := .minted, owner := some owner }⟩
          assets :=
            ⟨[nft.assetId], fun a => { a with status := advance a.status .convertedToNft }⟩ }
  | mintFnft {p fnft supply} (hfnft : l.fnfts.get? p.fnftId = some fnft)
      (hdraft : fnft.status = .draft) :
      Writes l (.mintFnft p)
        { fnfts :=
            ⟨[p.fnftId], fun f =>
              { f with
                status := .active, tokenAddress := some p.tokenAddress,
                totalSupply := supply, availableSupply := supply }⟩
          nfts :=
            ⟨fnft.nftIds, fun n =>
              { n with status := advance n.status .fractionalized, fnftId := some p.fnftId }⟩
          assets :=
            ⟨l.assetsBehind fnft.nftIds, fun a =>
              { a with status := advance a.status .fractionalized,
                       custody := advance a.custody .frac }⟩ }
  | createOffering {p offering} (hoffering : l.offerings.get? p.offeringId = some offering)
      (hactive : offering.status = .active) (hdraft : offering.onChainStatus = .draft) :
      Writes l (.createOffering p)
        { offerings := ⟨[p.offeringId], fun o => { o with onChainStatus := .onChain }⟩
          assets :=
            ⟨l.assetsBehind (OfferingRef.nftsOf l offering), fun a =>
              { a with status := advance a.status .iaoEvent }⟩ }
  | deactivateFnft {p fnft} (hfnft : l.fnfts.get? p.fnftId = some fnft)
      (hactive : fnft.status = .active) :
      Writes l (.deactivateFnft p)
        { fnfts := ⟨[p.fnftId], fun f => { f with status := .inactive }⟩
          nfts := ⟨fnft.nftIds, fun n => { n with status := .minted, fnftId := none }⟩
          assets :=
            ⟨l.assetsBehind fnft.nftIds, fun a => { a with status := .convertedToNft }⟩ }
  | deactivateOffering {p offering} (hoffering : l.offerings.get? p.offeringId = some offering)
      (hactive : offering.status = .active) :
      Writes l (.deactivateOffering p)
        { offerings := ⟨[p.offeringId], fun o => { o with status := .inactive }⟩ }
  | depositNft {p asset} (hasset : l.assets.get? p.assetId = some asset)
      (hcustody : asset.custody = .fractor ∨ asset.custody = .inReview) :
      Writes l (.depositNft p) { assets := ⟨[p.assetId], fun a => { a with custody := .frac }⟩ }
  | deposit {p offering fnft offeringRest fnftRest soldValue} (hamount : ¬ p.amount ≤ .zero)
      (hoffering : l.offerings.get? p.offeringId = some offering)
      (honChain : offering.onChainStatus = .onChain)
      (hfnft : l.fnfts.get? offering.fnftId = some fnft)
      (hrest : offering.availableSupply.sub? p.amount = some offeringRest)
      (hnonneg : ¬ offeringRest < .zero)
      (hrest' : fnft.availableSupply.sub? p.amount = some fnftRest)
      (hnonneg' : ¬ fnftRest < .zero) (hsold : offering.soldValue.add? p.value = some soldValue) :
      Writes l (.deposit p)
        { offerings :=
            ⟨[p.offeringId], fun o =>
              { o with availableSupply := offeringRest, soldValue := soldValue }⟩
          fnfts := ⟨[offering.fnftId], fun f => { f with availableSupply := fnftRest }⟩ }
  | mergeFnft {p fnft} (hfnft : l.fnfts.get? p.fnftId = some fnft) (hactive : fnft.status = .active) :
      Writes l (.mergeFnft p)
        { fnfts := ⟨[p.fnftId], fun f => { f with status := .merged }⟩
          assets :=
            ⟨l.assetsBehind fnft.nftIds, fun a =>
              { a with custody := advance a.custody .availableForRedeem }⟩ }
  | approveRevenue {p offering txHash commission now}
      (hoffering : l.offerings.get? p.offeringId = some offering)
      (hstatus : offering.revenue.status ≠ .rejected)
      (hnew : txHash ∉ offering.revenue.approvedTransactions) :
      Writes l (.approveRevenue p)
        { offerings :=
            ⟨[p.offeringId], fun o =>
              { o with revenue := p.approved now txHash commission o.revenue }⟩ }
  | rejectRevenue {p offering now} (hoffering : l.offerings.get? p.offeringId = some offering)
      (hpending : offering.revenue.status = .pending) :
      Writes l (.rejectRevenue p)
        { offerings :=
            ⟨[p.offeringId], fun o =>
              { o with
                revenue := { o.revenue with
                  status := .rejected, finalizedBy := p.sender, finalizedOn := some now } }⟩ }
  | claimRevenue {p request item txHash} (hclaimable : p.claimable l = .ok (request, item)) :
      Writes l (.claimRevenue p) { withdrawals := ⟨[p.requestId], p.settled txHash⟩ }
  | redeemNft {p nft} (hnft : l.nfts.get? p.tokenId = some nft)
      (hstatus : nft.status = .minted ∨ nft.status = .fractionalized) :
      Writes l (.redeemNft p)
        { nfts := ⟨[p.tokenId], fun n => { n with status := .redeemed }⟩
          assets :=
            ⟨[nft.assetId], fun a =>
              { a with status := advance a.status .redeemed,
                       custody := advance a.custody .redeemed }⟩ }
  | createPool {p pool} (hpool : l.pools.get? p.poolId = some pool) (hdraft : pool.status = .draft) :
      Writes l (.createPool p)
        { pools :=
            ⟨[p.poolId], fun q =>
              { q with status := .onChain, token := if p.token.isSome then p.token else q.token }⟩ }
  | aside {p} (h : p.isAside = true) : Writes l p {}

open Collection in
/-- **Every event writes what its kind writes**, and nothing else to the
documents with a status. -/
theorem Event.Changes.writes {e : Event} {l l' : Ledgers} {clock : Clock} {fx : List Effect}
    (hl : l.Keyed) (h : e.Changes clock l l' fx) :
    ∃ w, e.payload.Writes l w ∧ w.Between l l' := by
  have hstay := Writing.between_refl l
  obtain ⟨c, hc, h⟩ := h
  generalize e.payload = p at hc
  cases hc with
  | setAdmin =>
    obtain ⟨-, -, -, -, -, rfl, -⟩ := AdminChange.of_apply h
    exact ⟨_, .aside rfl, { hstay with }⟩
  | mintNft =>
    obtain ⟨nft, nfts, assets, hnft, hdraft, hnfts, hassets, rfl, -⟩ := TokenRef.of_mint h
    exact ⟨_, .mintNft hnft hdraft,
      { hstay with nfts := rewrites_update hnfts, assets := rewrites_update hassets }⟩
  | mintFnft =>
    obtain ⟨fnft, fnfts, nfts, assets, hfnft, hdraft, hfnfts, hnfts, hassets, rfl, -⟩ :=
      FnftMinted.of_mint h
    exact ⟨_, .mintFnft hfnft hdraft,
      { hstay with
        fnfts := rewrites_update hfnfts, nfts := rewrites_updateMany hl.nfts hnfts,
        assets := rewrites_updateMany hl.assets hassets }⟩
  | createOffering =>
    obtain ⟨offering, offerings, assets, hoffering, hactive, hdraft, hofferings, hassets, rfl, -⟩ :=
      OfferingRef.of_create h
    exact ⟨_, .createOffering hoffering hactive hdraft,
      { hstay with
        offerings := rewrites_update hofferings,
        assets := rewrites_updateMany hl.assets hassets }⟩
  | deactivateFnft =>
    obtain ⟨fnft, fnfts, nfts, assets, hfnft, hactive, hfnfts, hnfts, hassets, rfl, -⟩ :=
      FnftRef.of_deactivate h
    exact ⟨_, .deactivateFnft hfnft hactive,
      { hstay with
        fnfts := rewrites_update hfnfts, nfts := rewrites_updateMany hl.nfts hnfts,
        assets := rewrites_updateMany hl.assets hassets }⟩
  | deactivateOffering =>
    obtain ⟨offering, offerings, hoffering, hactive, hofferings, rfl, -⟩ :=
      OfferingRef.of_deactivate h
    exact ⟨_, .deactivateOffering hoffering hactive,
      { hstay with offerings := rewrites_update hofferings }⟩
  | depositNft =>
    obtain ⟨asset, assets, hasset, hcustody, hassets, rfl, -⟩ := AssetRef.of_takeIn h
    exact ⟨_, .depositNft hasset hcustody, { hstay with assets := rewrites_update hassets }⟩
  | deposit hp =>
    obtain ⟨s, rfl, -⟩ := FundDeposit.of_settle h
    obtain ⟨-, hamounts, -⟩ := FundDeposit.of_settleable hp
    obtain ⟨hrest, hnonneg⟩ := FundDeposit.of_offeringRest s.offering_drawn
    obtain ⟨hrest', hnonneg'⟩ := FundDeposit.of_fnftRest s.fnft_drawn
    exact ⟨_, .deposit (fun hamount => hamounts (.inl hamount)) s.offering_found s.onChain
      s.fnft_found hrest hnonneg hrest' hnonneg' s.sold,
      { hstay with
        offerings := rewrites_update s.offering_updated,
        fnfts := rewrites_update s.fnft_updated }⟩
  | mergeFnft =>
    obtain ⟨fnft, fnfts, assets, hfnft, hactive, hfnfts, hassets, rfl, -⟩ := FnftRef.of_merge h
    exact ⟨_, .mergeFnft hfnft hactive,
      { hstay with
        fnfts := rewrites_update hfnfts, assets := rewrites_updateMany hl.assets hassets }⟩
  | @approveRevenue _ plan _ _ hplan =>
    obtain ⟨-, _, _, -, -, hofferings, hcredited, hpartner, -⟩ := RevenueApproval.of_apply h
    obtain ⟨-, -, hget, hstatus, hnew, -⟩ := RevenueApproval.of_plan hplan
    rw [(RevenueApproval.Plan.offering_eq hl hplan).1] at hofferings
    rw [RevenueApproval.of_creditPartner hpartner, RevenueApproval.of_creditShare hcredited]
    exact ⟨_, .approveRevenue hget hstatus hnew,
      { hstay with offerings := rewrites_update hofferings }⟩
  | rejectRevenue =>
    obtain ⟨offering, offerings, hoffering, hpending, hofferings, rfl, -⟩ := OfferingRef.of_reject h
    exact ⟨_, .rejectRevenue hoffering hpending,
      { hstay with offerings := rewrites_update hofferings }⟩
  | claimRevenue =>
    obtain ⟨_, _, _, closed, _, hclaimable, hclosed, -, hwithdrawals, rfl, -⟩ :=
      RevenueClaim.of_apply h
    rw [(RevenueClaim.follows_closeAll hclosed).2] at hwithdrawals ⊢
    exact ⟨_, .claimRevenue hclaimable,
      { hstay with withdrawals := rewrites_update hwithdrawals }⟩
  | redeemNft =>
    obtain ⟨nft, nfts, assets, hnft, hstatus, hnfts, hassets, rfl, -⟩ := TokenRef.of_redeem h
    exact ⟨_, .redeemNft hnft hstatus,
      { hstay with nfts := rewrites_update hnfts, assets := rewrites_update hassets }⟩
  | stake =>
    obtain ⟨-, -, -, -, -, -, -, -, -, -, -, rfl, -⟩ := StakeChange.of_apply h
    exact ⟨_, .aside rfl, { hstay with }⟩
  | unstake =>
    obtain ⟨-, -, -, -, -, -, -, -, -, -, -, rfl, -⟩ := StakeChange.of_apply h
    exact ⟨_, .aside rfl, { hstay with }⟩
  | createPool =>
    obtain ⟨pool, pools, hpool, hdraft, hpools, rfl, -⟩ := PoolCreated.of_apply h
    exact ⟨_, .createPool hpool hdraft, { hstay with pools := rewrites_update hpools }⟩

end ChainLedger
