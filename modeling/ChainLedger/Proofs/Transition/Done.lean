import ChainLedger.Proofs.Transition.Route

/-!
# What events do for good

Once an event of most kinds was applied, its guard is shut for good. For each
kind `Payload.Done` says what keeps it shut: a status that no event takes
back, or a record under the hash of the transaction. An applied event is done
(`Event.Changes.done`), what is done stays so in all later ledgers
(`Payload.Done.later`), and an event that is done is skipped before anything
is asked (`Payload.Done.skips`).
-/

namespace ChainLedger

/-! ## What is done -/

/-- The names of the events that are applied once. -/
def onceOnly : List String :=
  ["MintNFT", "MintFNFT", "CreateIAOEvent", "DeactivateFNFT", "DeactivateIAOEvent", "DepositNFT",
    "Deposit", "MergeFNFT", "ApproveIAORevenue", "RejectIAORevenue", "ClaimRevenue", "Stake",
    "Unstake", "CreateTieringPool"]

/-- A stake or unstake under a hash is done: there is a receipt. -/
def StakeChange.Done (o : Origin) (l : Ledgers) (p : StakeChange) : Prop :=
  ∃ txHash, o.txHash = some txHash ∧ ¬ p.amount ≤ .zero ∧
    l.stakeReceipts.Holds txHash fun _ => True

/-- **What an event has done**, by its kind. An administrator may be set over
and over, and a token that was redeemed may become minted again. -/
def Payload.Done (o : Origin) (l : Ledgers) : Payload → Prop
  | .setAdmin _ => False
  | .mintNft p => l.nfts.Holds p.tokenId (·.status ≠ .draft)
  | .mintFnft p => l.fnfts.Holds p.fnftId (·.status ≠ .draft)
  | .createOffering p => l.offerings.Holds p.offeringId (·.onChainStatus = .onChain)
  | .deactivateFnft p => l.fnfts.Holds p.fnftId (·.status = .inactive)
  | .deactivateOffering p => l.offerings.Holds p.offeringId (·.status = .inactive)
  | .depositNft p =>
    l.assets.Holds p.assetId fun a => Pipeline.place CustodyStatus.frac ≤ Pipeline.place a.custody
  | .deposit p =>
    ∃ txHash, o.txHash = some txHash ∧ ¬ (p.amount ≤ .zero ∨ p.value < .zero) ∧
      l.purchases.Holds txHash fun _ => True
  | .mergeFnft p => l.fnfts.Holds p.fnftId (·.status = .merged)
  | .approveRevenue p =>
    ∃ txHash, o.txHash = some txHash ∧ ¬ p.amount ≤ .zero ∧
      l.offerings.Holds p.offeringId fun a => txHash ∈ a.revenue.approvedTransactions
  | .rejectRevenue p => l.offerings.Holds p.offeringId (·.revenue.status ≠ .pending)
  | .claimRevenue p =>
    (∃ txHash, o.txHash = some txHash) ∧
      l.withdrawals.Holds p.requestId fun r =>
        ∀ i ∈ r.items, i.currency = p.currency → i.txHash.isSome
  | .redeemNft _ => False
  | .stake p => p.Done o l
  | .unstake p => p.Done o l
  | .createPool p => l.pools.Holds p.poolId (·.status = .onChain)

/-- Of the origin of an event, only the hash of its transaction matters. -/
theorem Payload.Done.of_txHash_eq {p : Payload} {o o' : Origin} {l : Ledgers}
    (ho : o'.txHash = o.txHash) (h : p.Done o l) : p.Done o' l := by
  have hdone : p.Done o' l = p.Done o l := by
    cases p <;> simp only [Payload.Done, StakeChange.Done, ho]
  rw [hdone]
  exact h

/-! ## An applied event is done -/

section Applied

variable {l l' : Ledgers} {clock : Clock} {fx : List Effect} {o : Origin}

theorem StakeChange.done_of_apply {d : StakeDirection} {p : StakeChange} {txHash : String}
    (hp : p.sensible d o = .ok txHash) (h : p.apply d txHash clock l = .ok (l', fx)) :
    p.Done o l' := by
  obtain ⟨hhash, hamount⟩ := of_sensible hp
  obtain ⟨-, -, -, receipts, -, -, -, -, -, -, hreceipts, rfl, -⟩ := of_apply h
  exact ⟨_, hhash, hamount, Collection.holds_insert hreceipts fun _ => trivial⟩

theorem RevenueClaim.paid_settled {p : RevenueClaim} {txHash : String} {r : WithdrawalRequest}
    {i : WithdrawalItem} (hi : i ∈ (p.settled txHash r).items) (hc : i.currency = p.currency) :
    i.txHash.isSome := by
  obtain ⟨j, -, rfl⟩ := List.mem_map.mp hi
  by_cases hj : j.currency = p.currency
  · rw [if_pos hj]
    rfl
  · rw [if_neg hj] at hc
    exact absurd hc hj

/-- **An event that was applied is done.** -/
theorem Event.Changes.done {e : Event} (h : e.Changes clock l l' fx) (hl : l.Keyed)
    (hkind : e.payload.event ∈ onceOnly) : e.payload.Done e.origin l' := by
  obtain ⟨c, hc, h⟩ := h
  obtain ⟨o, p⟩ := e
  cases hc with
  | setAdmin => simp [Payload.event, onceOnly] at hkind
  | mintNft =>
    obtain ⟨-, nfts, assets, -, -, hnfts, -, rfl, -⟩ := TokenRef.of_mint h
    exact Collection.holds_update hnfts fun _ _ _ => nofun
  | mintFnft =>
    obtain ⟨-, fnfts, nfts, assets, -, -, hfnfts, -, -, rfl, -⟩ := FnftMinted.of_mint h
    exact Collection.holds_update hfnfts fun _ _ _ => nofun
  | createOffering =>
    obtain ⟨-, offerings, assets, -, -, -, hofferings, -, rfl, -⟩ := OfferingRef.of_create h
    exact Collection.holds_update hofferings fun _ _ _ => rfl
  | deactivateFnft =>
    obtain ⟨-, fnfts, nfts, assets, -, -, hfnfts, -, -, rfl, -⟩ := FnftRef.of_deactivate h
    exact Collection.holds_update hfnfts fun _ _ _ => rfl
  | deactivateOffering =>
    obtain ⟨-, offerings, -, -, hofferings, rfl, -⟩ := OfferingRef.of_deactivate h
    exact Collection.holds_update hofferings fun _ _ _ => rfl
  | depositNft =>
    obtain ⟨-, assets, -, -, hassets, rfl, -⟩ := AssetRef.of_takeIn h
    exact Collection.holds_update hassets fun _ _ _ => Nat.le_refl _
  | deposit hp =>
    obtain ⟨hhash, hamounts, -⟩ := FundDeposit.of_settleable hp
    obtain ⟨s, rfl, -⟩ := FundDeposit.of_settle h
    exact ⟨_, hhash, hamounts, Collection.holds_insert s.purchase_inserted fun _ => trivial⟩
  | mergeFnft =>
    obtain ⟨-, fnfts, assets, -, -, hfnfts, -, rfl, -⟩ := FnftRef.of_merge h
    exact Collection.holds_update hfnfts fun _ _ _ => rfl
  | @approveRevenue p plan rate commission hp =>
    obtain ⟨hhash, hamount, -⟩ := RevenueApproval.of_plan hp
    obtain ⟨-, offerings, credited, -, -, hofferings, hcredited, hpartner, -⟩ :=
      RevenueApproval.of_apply h
    have hwritten : l'.offerings = offerings := by
      rw [RevenueApproval.of_creditPartner hpartner, RevenueApproval.of_creditShare hcredited]
    refine ⟨plan.txHash, hhash, hamount, ?_⟩
    rw [hwritten, ← (RevenueApproval.Plan.offering_eq hl hp).1]
    exact Collection.holds_update hofferings fun _ _ _ => List.mem_append_right _ (.head _)
  | rejectRevenue =>
    obtain ⟨-, offerings, -, -, hofferings, rfl, -⟩ := OfferingRef.of_reject h
    exact Collection.holds_update hofferings fun _ _ _ => nofun
  | @claimRevenue p txHash hp =>
    have hhash := RevenueClaim.of_applicable hp
    obtain ⟨-, item, -, closed, withdrawals, -, -, -, hwithdrawals, rfl, -⟩ :=
      RevenueClaim.of_apply h
    exact ⟨⟨_, hhash⟩, Collection.holds_update hwithdrawals fun _ _ _ _ hi hc =>
      RevenueClaim.paid_settled hi hc⟩
  | redeemNft => simp [Payload.event, onceOnly] at hkind
  | stake hp => exact StakeChange.done_of_apply hp h
  | unstake hp => exact StakeChange.done_of_apply hp h
  | createPool =>
    obtain ⟨-, pools, -, -, hpools, rfl, -⟩ := PoolCreated.of_apply h
    exact Collection.holds_update hpools fun _ _ _ => rfl

end Applied

/-! ## What is done stays done -/

section Later

variable {l l' : Ledgers} {o : Origin}

theorem StakeChange.Done.later {p : StakeChange} (hf : l.Follows l') (h : p.Done o l) :
    p.Done o l' := by
  obtain ⟨txHash, hhash, hamount, hreceipt⟩ := h
  exact ⟨txHash, hhash, hamount, hf.stakeReceipts.holds (fun _ => id) hreceipt⟩

/-- Items that are paid out stay so. -/
theorem WithdrawalItem.paid_of_forall₂ {c : Address} {is js : List WithdrawalItem}
    (h : List.Forall₂ Becomes is js) (hi : ∀ i ∈ is, i.currency = c → i.txHash.isSome) :
    ∀ j ∈ js, j.currency = c → j.txHash.isSome := by
  induction h with
  | nil => nofun
  | @cons i j is js hij _ ih =>
    intro k hk hc
    rcases List.mem_cons.mp hk with rfl | hk
    · exact hij.paid (hi i (.head _) (hij.currency ▸ hc))
    · exact ih (fun i' hi' => hi i' (.tail _ hi')) k hk hc

/-- **What an event has done no event undoes.** -/
theorem Payload.Done.later {p : Payload} (hf : l.Follows l') (h : p.Done o l) : p.Done o l' := by
  cases p with
  | setAdmin p => exact h
  | mintNft p => exact hf.nfts.grows.holds (fun hab _ => hab.status) h
  | mintFnft p => exact hf.fnfts.grows.holds (fun hab => hab.minted) h
  | createOffering p => exact hf.offerings.grows.holds (fun hab => hab.onChain) h
  | deactivateFnft p =>
    refine hf.fnfts.grows.holds (fun {a b} hab ha => ?_) h
    exact (hab.closed (by rw [ha]; rfl)).trans ha
  | deactivateOffering p => exact hf.offerings.grows.holds (fun hab => hab.inactive) h
  | depositNft p =>
    exact hf.assets.grows.holds (fun hab ha => Nat.le_trans ha hab.custody) h
  | deposit p =>
    obtain ⟨txHash, hhash, hamounts, hpurchase⟩ := h
    exact ⟨txHash, hhash, hamounts, hf.purchases.holds (fun _ => id) hpurchase⟩
  | mergeFnft p =>
    refine hf.fnfts.grows.holds (fun {a b} hab ha => ?_) h
    exact (hab.closed (by rw [ha]; rfl)).trans ha
  | approveRevenue p =>
    obtain ⟨txHash, hhash, hamount, hoffering⟩ := h
    exact ⟨txHash, hhash, hamount,
      hf.offerings.grows.holds (fun hab ha => hab.approved.subset ha) hoffering⟩
  | rejectRevenue p =>
    refine hf.offerings.grows.holds (fun {a b} hab ha => ?_) h
    rw [hab.finalized ha]
    exact ha
  | claimRevenue p =>
    exact ⟨h.1, hf.withdrawals.grows.holds
      (fun hab => WithdrawalItem.paid_of_forall₂ hab.items) h.2⟩
  | redeemNft p => exact h
  | stake p => exact StakeChange.Done.later hf h
  | unstake p => exact StakeChange.Done.later hf h
  | createPool p =>
    refine hf.pools.grows.holds (fun {a b} hab ha => ?_) h
    rw [hab.wasDraft] at ha
    cases ha

end Later

/-! ## What is done is skipped -/

/-- **An attempt that is skipped at once**, without a question and whatever
the clock says. -/
inductive Attempt.Skips (l : Ledgers) (r : Skip) : Attempt → Prop
  | refuse : Skips l r (.refuse (.skip r))
  | commit {c : Commit} (h : ∀ clock, c clock l = .error (.skip r)) : Skips l r (.commit c)

section Skipped

variable {l : Ledgers} {o : Origin}

theorem StakeChange.Done.skips {d : StakeDirection} {p : StakeChange} (h : p.Done o l) :
    ∃ r, (p.attempt d o).Skips l r := by
  obtain ⟨txHash, hhash, hamount, _, hreceipt, -⟩ := h
  have hsensible : p.sensible d o = .ok txHash := by
    rw [sensible, Origin.requireTxHash, hhash, orRefuse_some_bind, require_bind_of hamount]
    rfl
  rw [attempt, hsensible]
  refine ⟨.stakeApplied d txHash, .commit fun clock => ?_⟩
  rw [apply, require_bind_of_not]
  rw [Collection.not_contains_iff, hreceipt]
  exact Option.some_ne_none _

/-- A claim of items that are paid out is skipped. -/
theorem RevenueClaim.claimable_of_paid {p : RevenueClaim} {request : WithdrawalRequest}
    (hget : l.withdrawals.get? p.requestId = some request)
    (hpaid : ∀ i ∈ request.items, i.currency = p.currency → i.txHash.isSome) :
    ∃ r, p.claimable l = .error (.skip r) := by
  rw [claimable, hget, orRefuse_some_bind]
  by_cases hstatus : request.status = .requesting ∨ request.status = .processing
  · rw [require_bind_of hstatus]
    cases hfind : request.items.find? (·.currency = p.currency) with
    | none => exact ⟨_, rfl⟩
    | some item =>
      have hcurrency : item.currency = p.currency := by simpa using List.find?_some hfind
      have hdone := hpaid item (List.mem_of_find?_eq_some hfind) hcurrency
      obtain ⟨done, hdone⟩ := Option.isSome_iff_exists.mp hdone
      rw [orRefuse_some_bind, hdone]
      exact ⟨_, rfl⟩
  · exact ⟨_, require_bind_of_not hstatus⟩

/-- **An event that is done is skipped at once.** -/
theorem Payload.Done.skips {p : Payload} (verify : Bool) (h : p.Done o l) :
    ∃ r, (Event.attempt verify ⟨o, p⟩ l).Skips l r := by
  cases p with
  | setAdmin p => exact h.elim
  | mintNft p =>
    obtain ⟨nft, hget, hstatus⟩ := h
    have hguard : p.mintable l = .error (.skip (.nftAlready p.tokenId nft.status)) := by
      rw [TokenRef.mintable, hget, orRefuse_some_bind, require_bind_of_not hstatus]
    show ∃ r, (p.attemptMint o l).Skips l r
    rw [TokenRef.attemptMint, hguard]
    exact ⟨_, .refuse⟩
  | mintFnft p =>
    obtain ⟨fnft, hget, hstatus⟩ := h
    have hguard : p.mintable l = .error (.skip (.fnftAlready p.fnftId fnft.status)) := by
      rw [FnftMinted.mintable, hget, orRefuse_some_bind, require, if_neg hstatus]
    show ∃ r, (p.attempt o l).Skips l r
    rw [FnftMinted.attempt, hguard]
    exact ⟨_, .refuse⟩
  | createOffering p =>
    obtain ⟨offering, hget, hstatus⟩ := h
    refine ⟨.offeringIs p.offeringId offering.status offering.onChainStatus,
      .commit fun clock => ?_⟩
    rw [OfferingRef.create, hget, orRefuse_some_bind, require_bind_of_not]
    rw [hstatus]
    simp
  | deactivateFnft p =>
    obtain ⟨fnft, hget, hstatus⟩ := h
    refine ⟨.fnftNotActive p.fnftId fnft.status, .commit fun clock => ?_⟩
    rw [FnftRef.deactivate, hget, orRefuse_some_bind, require_bind_of_not]
    rw [hstatus]
    decide
  | deactivateOffering p =>
    obtain ⟨offering, hget, hstatus⟩ := h
    refine ⟨.offeringInactive p.offeringId, .commit fun clock => ?_⟩
    rw [OfferingRef.deactivate, hget, orRefuse_some_bind, require_bind_of_not]
    rw [hstatus]
    decide
  | depositNft p =>
    obtain ⟨asset, hget, hcustody⟩ := h
    refine ⟨.custodyAlready p.assetId asset.custody, .commit fun clock => ?_⟩
    rw [AssetRef.takeIn, hget, orRefuse_some_bind, require_bind_of_not]
    rintro (hc | hc) <;> rw [hc] at hcustody <;> exact absurd hcustody (by decide)
  | deposit p =>
    obtain ⟨txHash, hhash, hamounts, _, hpurchase, -⟩ := h
    have hguard : p.settleable o l = .error (.skip (.purchaseSettled txHash)) := by
      rw [FundDeposit.settleable, Origin.requireTxHash, hhash, orRefuse_some_bind,
        require_bind_of hamounts, require_bind_of_not]
      rw [Collection.not_contains_iff, hpurchase]
      exact Option.some_ne_none _
    show ∃ r, (p.attempt verify o l).Skips l r
    rw [FundDeposit.attempt, hguard]
    exact ⟨_, .refuse⟩
  | mergeFnft p =>
    obtain ⟨fnft, hget, hstatus⟩ := h
    refine ⟨.fnftNotMergeable p.fnftId fnft.status, .commit fun clock => ?_⟩
    rw [FnftRef.merge, hget, orRefuse_some_bind, require_bind_of_not]
    rw [hstatus]
    decide
  | approveRevenue p =>
    obtain ⟨txHash, hhash, hamount, offering, hget, happroved⟩ := h
    have hguard : ∃ r, p.plan o l = .error (.skip r) := by
      rw [RevenueApproval.plan, Origin.requireTxHash, hhash, orRefuse_some_bind,
        require_bind_of hamount, hget, orRefuse_some_bind]
      by_cases hrejected : offering.revenue.status = .rejected
      · exact ⟨_, require_bind_of_not (not_not.mpr hrejected)⟩
      · exact ⟨_, (require_bind_of hrejected).trans (require_bind_of_not (not_not.mpr happroved))⟩
    obtain ⟨r, hguard⟩ := hguard
    show ∃ r, (p.attempt o l).Skips l r
    rw [RevenueApproval.attempt, hguard]
    exact ⟨_, .refuse⟩
  | rejectRevenue p =>
    obtain ⟨offering, hget, hstatus⟩ := h
    refine ⟨.revenueNotPending p.offeringId offering.revenue.status, .commit fun clock => ?_⟩
    rw [OfferingRef.reject, hget, orRefuse_some_bind, require_bind_of_not hstatus]
  | claimRevenue p =>
    obtain ⟨⟨txHash, hhash⟩, request, hget, hpaid⟩ := h
    obtain ⟨r, hguard⟩ := RevenueClaim.claimable_of_paid hget hpaid
    have happlicable : p.applicable o l = .error (.skip r) := by
      rw [RevenueClaim.applicable, Origin.requireTxHash, hhash, orRefuse_some_bind, hguard]
      rfl
    show ∃ r, (p.attempt verify o l).Skips l r
    rw [RevenueClaim.attempt, happlicable]
    exact ⟨_, .refuse⟩
  | redeemNft p => exact h.elim
  | stake p => exact StakeChange.Done.skips h
  | unstake p => exact StakeChange.Done.skips h
  | createPool p =>
    obtain ⟨pool, hget, hstatus⟩ := h
    refine ⟨.poolOnChain p.poolId, .commit fun clock => ?_⟩
    rw [PoolCreated.apply, hget, orRefuse_some_bind, require_bind_of_not]
    rw [hstatus]
    decide

end Skipped

end ChainLedger
