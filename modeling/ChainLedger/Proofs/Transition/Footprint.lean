import ChainLedger.Proofs.Ledger.Footprint
import ChainLedger.Proofs.Transition.Payout
import ChainLedger.Proofs.Transition.Writing

/-!
# The footprints of events

`Event.footprint` computes, from the ledgers that an event finds, which
documents it may write; every event that is applied writes none but these
(`Event.Changes.framed`). For the documents with a status that is read off
what the event writes to them (`Payload.Writes.keys`); for purchases, wallets,
stakes, receipts and revenue it is shown here, kind by kind.
-/

namespace ChainLedger

open Collection

variable {l l' : Ledgers} {clock : Clock} {fx : List Effect}

/-! ## The footprint of an event -/

namespace Ledgers

/-- The tokens that a fractional token lists. -/
def listedBy (l : Ledgers) (fnftId : String) : List String :=
  ((l.fnfts.get? fnftId).map (·.nftIds)).getD []

/-- The fractional token of an offering. -/
def fnftsOf (l : Ledgers) (offeringId : String) : List String :=
  ((l.offerings.get? offeringId).map (·.fnftId)).toList

/-- The accounts that revenue of an offering is credited to: of its
beneficiary, and of its partner if it has one. -/
def sharersOf (l : Ledgers) (offeringId : String) : List Account :=
  match l.offerings.get? offeringId with
  | some o => (o.beneficiaryId :: o.bdId.toList).map fun b => ⟨b, offeringId, o.currency⟩
  | none => []

/-- The accounts of its beneficiary that a request covers with the first item
of a currency. -/
def coveredBy (l : Ledgers) (requestId : String) (currency : Address) : List Account :=
  match l.withdrawals.get? requestId with
  | some r =>
    ((r.items.find? (·.currency = currency)).map (·.accounts r.beneficiaryId)).getD []
  | none => []

end Ledgers

/-- **What an event may write.** -/
def Event.footprint (e : Event) (l : Ledgers) : Footprint :=
  match e.payload with
  | .setAdmin p => { admins := [p.wallet.checksummed] }
  | .mintNft p => { nfts := [p.tokenId], assets := l.assetsBehind [p.tokenId] }
  | .redeemNft p => { nfts := [p.tokenId], assets := l.assetsBehind [p.tokenId] }
  | .mintFnft p =>
    { fnfts := [p.fnftId], nfts := l.listedBy p.fnftId,
      assets := l.assetsBehind (l.listedBy p.fnftId) }
  | .deactivateFnft p =>
    { fnfts := [p.fnftId], nfts := l.listedBy p.fnftId,
      assets := l.assetsBehind (l.listedBy p.fnftId) }
  | .mergeFnft p => { fnfts := [p.fnftId], assets := l.assetsBehind (l.listedBy p.fnftId) }
  | .createOffering p =>
    { offerings := [p.offeringId],
      assets := l.assetsBehind ((l.fnftsOf p.offeringId).flatMap l.listedBy) }
  | .deactivateOffering p => { offerings := [p.offeringId] }
  | .rejectRevenue p => { offerings := [p.offeringId] }
  | .depositNft p => { assets := [p.assetId] }
  | .deposit p =>
    { purchases := e.origin.txHash.toList, offerings := [p.offeringId],
      fnfts := l.fnftsOf p.offeringId, whitelist := [p.whitelistKey] }
  | .approveRevenue p => { offerings := [p.offeringId], credited := l.sharersOf p.offeringId }
  | .claimRevenue p =>
    { withdrawals := [p.requestId], closed := l.coveredBy p.requestId p.currency }
  | .stake p => { stakes := [p.positionKey], stakeReceipts := e.origin.txHash.toList }
  | .unstake p => { stakes := [p.positionKey], stakeReceipts := e.origin.txHash.toList }
  | .createPool p => { pools := [p.poolId] }

/-! ## Documents with a status -/

/-- The asset behind one token that is there. -/
theorem Ledgers.assetsBehind_singleton {id : String} {nft : Nft} (h : l.nfts.get? id = some nft) :
    l.assetsBehind [id] = [nft.assetId] := by
  simp only [assetsBehind, List.filterMap_cons, h, Option.map_some, List.filterMap_nil]

/-- **What an event writes to documents with a status** is under the keys of
its footprint. -/
theorem Payload.Writes.keys {e : Event} {w : Writing} (h : e.payload.Writes l w) :
    w.fnfts.keys = (e.footprint l).fnfts ∧ w.nfts.keys = (e.footprint l).nfts ∧
      w.assets.keys = (e.footprint l).assets ∧ w.offerings.keys = (e.footprint l).offerings ∧
      w.withdrawals.keys = (e.footprint l).withdrawals ∧
      w.pools.keys = (e.footprint l).pools := by
  obtain ⟨o, p⟩ := e
  cases h with
  | mintNft hnft | redeemNft hnft =>
    exact ⟨rfl, rfl, (Ledgers.assetsBehind_singleton hnft).symm, rfl, rfl, rfl⟩
  | mintFnft hfnft | deactivateFnft hfnft | mergeFnft hfnft =>
    simp [Event.footprint, Ledgers.listedBy, hfnft]
  | createOffering hoffering =>
    simp [Event.footprint, Ledgers.fnftsOf, hoffering, OfferingRef.nftsOf, Ledgers.listedBy]
  | deposit _ hoffering => simp [Event.footprint, Ledgers.fnftsOf, hoffering]
  | deactivateOffering | depositNft | approveRevenue | rejectRevenue | claimRevenue | createPool =>
    exact ⟨rfl, rfl, rfl, rfl, rfl, rfl⟩
  | aside haside =>
    cases p with
    | setAdmin | stake | unstake => exact ⟨rfl, rfl, rfl, rfl, rfl, rfl⟩
    | _ => cases haside

/-- What is rewritten is amended. -/
theorem Collection.Rewrites.amends {α : Type} [Document α] {w : Rewrite α} {c c' : Collection α}
    {ks : List String} (h : Rewrites w c c') (hks : w.keys = ks) : Amends ks c c' := by
  have hrevises : Revises (fun _ _ => True) c c' :=
    h.revises (fun _ => trivial) fun _ _ _ _ _ => trivial
  subst hks
  exact ⟨⟨fun k hk => h.get?_of_not_mem hk, fun k => contains_of_revises hrevises⟩, hrevises.none⟩

/-! ## Records and accounts -/

/-- What a wallet bought is written under its key. -/
theorem FundDeposit.within_record {p : FundDeposit} {purchased deposited : Decimal}
    {w w' : Collection WhitelistEntry} (h : p.record clock purchased deposited w = .ok w') :
    Within [p.whitelistKey] w w' := by
  unfold record at h
  split at h
  · exact (amends_update h).toWithin
  · exact (enters_insert h).toWithin

/-- A stake is written under its key. -/
theorem StakeChange.within_record {p : StakeChange} {next : Decimal}
    {s s' : Collection StakePosition} (h : p.record clock next s = .ok s') :
    Within [p.positionKey] s s' := by
  unfold record at h
  split at h
  · exact (amends_update h).toWithin
  · exact (enters_insert h).toWithin

namespace RevenueApproval

variable {o : Origin} {p : RevenueApproval} {plan : Plan} {rate commission amount : Decimal}

/-- A share is credited to the account that it is of. -/
theorem creditsAt_creditShare {offering : Offering} {beneficiary : String} (hl : l.Keyed)
    (h : creditShare clock offering rate beneficiary amount l = .ok l') :
    Ledgers.CreditsAt ⟨beneficiary, offering.id, offering.currency⟩ l l' := by
  unfold creditShare at h
  split at h
  · obtain ⟨⟨id, l''⟩, hcredit, rfl⟩ := map_eq_ok.mp h
    exact Ledgers.creditsAt_credit hl hcredit
  · cases h
    exact .refl

/-- **An approval writes one entry at most of each account that it credits.** -/
theorem books_apply (hl : l.Keyed) (hplan : p.plan o l = .ok plan)
    (h : p.apply plan rate commission clock l = .ok (l', fx)) :
    Books (l.sharersOf p.offeringId) [] l.revenue l'.revenue := by
  obtain ⟨-, offerings, credited, -, -, hofferings, hcredited, hpartner, -⟩ := of_apply h
  obtain ⟨-, -, hget, -⟩ := of_plan hplan
  have hid := (Plan.offering_eq hl hplan).1
  have hkeyed : Ledgers.Keyed { l with offerings := offerings } :=
    { hl with offerings := keyed_update hofferings (fun _ => rfl) hl.offerings }
  have hkeyed₁ := (follows_creditShare hkeyed hcredited).keyed hkeyed
  have hkeyed₂ := (follows_creditPartner hkeyed₁ hpartner).keyed hkeyed₁
  have howner := creditsAt_creditShare hkeyed hcredited
  rw [hid] at howner
  cases hbd : plan.offering.bdId with
  | none =>
    -- Without a partner nothing follows, and it does not matter whose account is named.
    simp only [creditPartner, hbd] at hpartner
    cases hpartner
    have hsharers : l.sharersOf p.offeringId =
        [⟨plan.offering.beneficiaryId, p.offeringId, plan.offering.currency⟩] := by
      simp [Ledgers.sharersOf, hget, hbd]
    have hbooks := howner.books hkeyed₁ hkeyed₁ .refl
      (b := ⟨plan.offering.beneficiaryId, p.offeringId, plan.offering.currency⟩)
    rw [hsharers]
    refine ⟨hbooks.still, fun k hk => ?_, hbooks.once⟩
    obtain ⟨e, he, hmem, hbefore⟩ := hbooks.written k hk
    exact ⟨e, he, hmem.imp_left fun hmem => by simpa using hmem, hbefore⟩
  | some bdId =>
    simp only [creditPartner, hbd] at hpartner
    have hsharers : l.sharersOf p.offeringId =
        [⟨plan.offering.beneficiaryId, p.offeringId, plan.offering.currency⟩,
          ⟨bdId, p.offeringId, plan.offering.currency⟩] := by
      simp [Ledgers.sharersOf, hget, hbd]
    have hbd := creditsAt_creditShare hkeyed₁ hpartner
    rw [hid] at hbd
    have hbooks := howner.books hkeyed₁ hkeyed₂ hbd
    rw [hsharers]
    exact hbooks

end RevenueApproval

/-- **A claim writes the entries of the accounts that it covers.** -/
theorem RevenueClaim.books_apply {p : RevenueClaim} {txHash : String}
    (h : p.apply txHash clock l = .ok (l', fx)) :
    Books [] (l.coveredBy p.requestId p.currency) l.revenue l'.revenue := by
  obtain ⟨request, item, _, closed, withdrawals, hclaimable, hclosed, -, -, rfl, -⟩ := of_apply h
  obtain ⟨hrequest, -, hitem, -⟩ := of_claimable hclaimable
  have hcurrency : item.currency = p.currency := by simpa using List.find?_some hitem
  have hcovered : l.coveredBy p.requestId p.currency =
      item.offeringIds.map fun k => ⟨request.beneficiaryId, k, p.currency⟩ := by
    simp only [Ledgers.coveredBy, hrequest, hitem, Option.map_some, Option.getD_some,
      WithdrawalItem.accounts, hcurrency]
  rw [hcovered]
  exact (shuts_closeAll hclosed).books

namespace Event.Changes

variable {e : Event}

/-- **What an event writes to the documents without a status** is in its
footprint. -/
theorem records (hl : l.Keyed) (h : e.Changes clock l l' fx) :
    Amends (e.footprint l).admins l.admins l'.admins ∧
      Enters (e.footprint l).purchases l.purchases l'.purchases ∧
      Within (e.footprint l).whitelist l.whitelist l'.whitelist ∧
      Books (e.footprint l).credited (e.footprint l).closed l.revenue l'.revenue ∧
      Within (e.footprint l).stakes l.stakes l'.stakes ∧
      Enters (e.footprint l).stakeReceipts l.stakeReceipts l'.stakeReceipts := by
  obtain ⟨o, p⟩ := e
  obtain ⟨c, hc, h⟩ := h
  cases hc with
  | setAdmin =>
    obtain ⟨-, admins, -, -, hadmins, rfl, -⟩ := AdminChange.of_apply h
    exact ⟨amends_update hadmins, .refl, .refl, .refl, .refl, .refl⟩
  | mintNft =>
    obtain ⟨-, -, -, -, -, -, -, rfl, -⟩ := TokenRef.of_mint h
    exact ⟨.refl, .refl, .refl, .refl, .refl, .refl⟩
  | mintFnft =>
    obtain ⟨-, -, -, -, -, -, -, -, -, rfl, -⟩ := FnftMinted.of_mint h
    exact ⟨.refl, .refl, .refl, .refl, .refl, .refl⟩
  | createOffering =>
    obtain ⟨-, -, -, -, -, -, -, -, rfl, -⟩ := OfferingRef.of_create h
    exact ⟨.refl, .refl, .refl, .refl, .refl, .refl⟩
  | deactivateFnft =>
    obtain ⟨-, -, -, -, -, -, -, -, -, rfl, -⟩ := FnftRef.of_deactivate h
    exact ⟨.refl, .refl, .refl, .refl, .refl, .refl⟩
  | deactivateOffering =>
    obtain ⟨-, -, -, -, -, rfl, -⟩ := OfferingRef.of_deactivate h
    exact ⟨.refl, .refl, .refl, .refl, .refl, .refl⟩
  | depositNft =>
    obtain ⟨-, -, -, -, -, rfl, -⟩ := AssetRef.of_takeIn h
    exact ⟨.refl, .refl, .refl, .refl, .refl, .refl⟩
  | deposit hp =>
    obtain ⟨s, rfl, -⟩ := FundDeposit.of_settle h
    have hhash := (FundDeposit.of_settleable hp).1
    have hpurchases : Enters o.txHash.toList l.purchases s.purchases := by
      rw [hhash]
      exact enters_insert s.purchase_inserted
    exact ⟨.refl, hpurchases, FundDeposit.within_record s.recorded, .refl, .refl, .refl⟩
  | mergeFnft =>
    obtain ⟨-, -, -, -, -, -, -, rfl, -⟩ := FnftRef.of_merge h
    exact ⟨.refl, .refl, .refl, .refl, .refl, .refl⟩
  | approveRevenue hplan =>
    have hbooks := RevenueApproval.books_apply hl hplan h
    obtain ⟨_, _, _, -, -, -, hcredited, hpartner, -⟩ := RevenueApproval.of_apply h
    rw [RevenueApproval.of_creditPartner hpartner, RevenueApproval.of_creditShare hcredited]
    exact ⟨.refl, .refl, .refl, hbooks, .refl, .refl⟩
  | rejectRevenue =>
    obtain ⟨-, -, -, -, -, rfl, -⟩ := OfferingRef.of_reject h
    exact ⟨.refl, .refl, .refl, .refl, .refl, .refl⟩
  | claimRevenue =>
    have hbooks := RevenueClaim.books_apply h
    obtain ⟨_, _, _, closed, _, -, hclosed, -, -, rfl, -⟩ := RevenueClaim.of_apply h
    rw [(RevenueClaim.follows_closeAll hclosed).2] at hbooks ⊢
    exact ⟨.refl, .refl, .refl, hbooks, .refl, .refl⟩
  | redeemNft =>
    obtain ⟨-, -, -, -, -, -, -, rfl, -⟩ := TokenRef.of_redeem h
    exact ⟨.refl, .refl, .refl, .refl, .refl, .refl⟩
  | stake hp | unstake hp =>
    obtain ⟨_, _, _, receipts, -, -, -, -, -, hstakes, hreceipts, rfl, -⟩ := StakeChange.of_apply h
    have hhash := (StakeChange.of_sensible hp).1
    have henters : Enters o.txHash.toList l.stakeReceipts receipts := by
      rw [hhash]
      exact enters_insert hreceipts
    exact ⟨.refl, .refl, .refl, .refl, StakeChange.within_record hstakes, henters⟩
  | createPool =>
    obtain ⟨-, -, -, -, -, rfl, -⟩ := PoolCreated.of_apply h
    exact ⟨.refl, .refl, .refl, .refl, .refl, .refl⟩

/-- **Every event keeps within its footprint.** -/
theorem framed (hl : l.Keyed) (h : e.Changes clock l l' fx) :
    l.Framed (e.footprint l) l' := by
  obtain ⟨w, hw, hbetween⟩ := h.writes hl
  obtain ⟨hfnfts, hnfts, hassets, hofferings, hwithdrawals, hpools⟩ := hw.keys
  obtain ⟨hadmins, hpurchases, hwhitelist, hrevenue, hstakes, hreceipts⟩ := h.records hl
  exact {
    assets := hbetween.assets.amends hassets
    nfts := hbetween.nfts.amends hnfts
    fnfts := hbetween.fnfts.amends hfnfts
    offerings := hbetween.offerings.amends hofferings
    purchases := hpurchases
    whitelist := hwhitelist
    revenue := hrevenue
    withdrawals := hbetween.withdrawals.amends hwithdrawals
    admins := hadmins
    pools := hbetween.pools.amends hpools
    stakes := hstakes
    stakeReceipts := hreceipts }

end Event.Changes

end ChainLedger
