import ChainLedger.Proofs.Transition.Route

/-!
# Every commit leaves a trace

A collection has advanced if a document came in or one was written since, so
that its watermark is later (`Collection.Advances`). Every event that is
applied advances one of the collections (`Event.Changes.advances`): no commit
goes through without a write that the next reader of the document can see.
-/

namespace ChainLedger

namespace Collection

variable {α : Type} [Document α] {c c' : Collection α} {now : Readings} {key : String} {a : α}
  {f : α → α}

/-- **A document came in, or has a later watermark** than before. -/
def Advances (c c' : Collection α) : Prop :=
  ∃ k b, c'.get? k = some b ∧
    ∀ a, c.get? k = some a → Document.updatedAt a < Document.updatedAt b

theorem advances_update (h : c.update now key f = .ok c')
    (hf : ∀ a, Document.updatedAt (f a) = Document.updatedAt a) : c.Advances c' := by
  obtain ⟨⟨a, ha⟩, -⟩ := get?_update (k := key) h
  have hrel := rel_update h key
  rw [ha] at hrel
  obtain ⟨b, hb, hab⟩ := hrel.of_some
  rw [if_pos rfl] at hab
  obtain ⟨t, ht, rfl⟩ := hab
  refine ⟨key, _, hb, fun a' ha' => ?_⟩
  obtain rfl := Option.some.inj (ha.symm.trans ha')
  rwa [Document.updatedAt_stamp, ← hf a]

theorem advances_insert (h : c.insert now a = .ok c') : c.Advances c' := by
  obtain ⟨hfree, t, -, hget⟩ := get?_insert h
  refine ⟨Document.key a, _, (hget _).trans (if_pos rfl), fun a' ha' => ?_⟩
  rw [hfree] at ha'
  cases ha'

end Collection

/-- **One of the collections has advanced.** -/
inductive Ledgers.Advances (l l' : Ledgers) : Prop
  | assets (h : l.assets.Advances l'.assets)
  | nfts (h : l.nfts.Advances l'.nfts)
  | fnfts (h : l.fnfts.Advances l'.fnfts)
  | offerings (h : l.offerings.Advances l'.offerings)
  | purchases (h : l.purchases.Advances l'.purchases)
  | whitelist (h : l.whitelist.Advances l'.whitelist)
  | revenue (h : l.revenue.Advances l'.revenue)
  | withdrawals (h : l.withdrawals.Advances l'.withdrawals)
  | admins (h : l.admins.Advances l'.admins)
  | pools (h : l.pools.Advances l'.pools)
  | stakes (h : l.stakes.Advances l'.stakes)
  | stakeReceipts (h : l.stakeReceipts.Advances l'.stakeReceipts)

open Collection in
/-- **An event that is applied advances the ledgers.** Of the collections that
it writes, the one is named whose document it is about. -/
theorem Event.Changes.advances {e : Event} {l l' : Ledgers} {clock : Clock} {fx : List Effect}
    (h : e.Changes clock l l' fx) : l.Advances l' := by
  obtain ⟨c, hc, h⟩ := h
  generalize e.payload = p at hc
  cases hc with
  | setAdmin =>
    obtain ⟨_, admins, -, -, hadmins, rfl, -⟩ := AdminChange.of_apply h
    exact .admins (advances_update hadmins fun _ => rfl)
  | mintNft =>
    obtain ⟨_, nfts, _, -, -, hnfts, -, rfl, -⟩ := TokenRef.of_mint h
    exact .nfts (advances_update hnfts fun _ => rfl)
  | mintFnft =>
    obtain ⟨_, fnfts, _, _, -, -, hfnfts, -, -, rfl, -⟩ := FnftMinted.of_mint h
    exact .fnfts (advances_update hfnfts fun _ => rfl)
  | createOffering =>
    obtain ⟨_, offerings, _, -, -, -, hofferings, -, rfl, -⟩ := OfferingRef.of_create h
    exact .offerings (advances_update hofferings fun _ => rfl)
  | deactivateFnft =>
    obtain ⟨_, fnfts, _, _, -, -, hfnfts, -, -, rfl, -⟩ := FnftRef.of_deactivate h
    exact .fnfts (advances_update hfnfts fun _ => rfl)
  | deactivateOffering =>
    obtain ⟨_, offerings, -, -, hofferings, rfl, -⟩ := OfferingRef.of_deactivate h
    exact .offerings (advances_update hofferings fun _ => rfl)
  | depositNft =>
    obtain ⟨_, assets, -, -, hassets, rfl, -⟩ := AssetRef.of_takeIn h
    exact .assets (advances_update hassets fun _ => rfl)
  | deposit =>
    obtain ⟨s, rfl, -⟩ := FundDeposit.of_settle h
    exact .purchases (advances_insert s.purchase_inserted)
  | mergeFnft =>
    obtain ⟨_, fnfts, _, -, -, hfnfts, -, rfl, -⟩ := FnftRef.of_merge h
    exact .fnfts (advances_update hfnfts fun _ => rfl)
  | approveRevenue =>
    obtain ⟨-, offerings, credited, -, -, hofferings, hcredited, hpartner, -⟩ :=
      RevenueApproval.of_apply h
    rw [RevenueApproval.of_creditPartner hpartner, RevenueApproval.of_creditShare hcredited]
    exact .offerings (advances_update hofferings fun _ => rfl)
  | rejectRevenue =>
    obtain ⟨_, offerings, -, -, hofferings, rfl, -⟩ := OfferingRef.of_reject h
    exact .offerings (advances_update hofferings fun _ => rfl)
  | claimRevenue =>
    obtain ⟨_, _, _, closed, withdrawals, -, hclosed, -, hwithdrawals, rfl, -⟩ :=
      RevenueClaim.of_apply h
    rw [(RevenueClaim.follows_closeAll hclosed).2] at hwithdrawals
    exact .withdrawals (advances_update hwithdrawals fun _ => rfl)
  | redeemNft =>
    obtain ⟨_, nfts, _, -, -, hnfts, -, rfl, -⟩ := TokenRef.of_redeem h
    exact .nfts (advances_update hnfts fun _ => rfl)
  | stake =>
    obtain ⟨_, _, _, receipts, -, -, -, -, -, -, hreceipts, rfl, -⟩ := StakeChange.of_apply h
    exact .stakeReceipts (advances_insert hreceipts)
  | unstake =>
    obtain ⟨_, _, _, receipts, -, -, -, -, -, -, hreceipts, rfl, -⟩ := StakeChange.of_apply h
    exact .stakeReceipts (advances_insert hreceipts)
  | createPool =>
    obtain ⟨_, pools, -, -, hpools, rfl, -⟩ := PoolCreated.of_apply h
    exact .pools (advances_update hpools fun _ => rfl)

end ChainLedger
