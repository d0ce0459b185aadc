import ChainLedger.Proofs.Ledger.Evolution
import ChainLedger.Transition.Admin
import ChainLedger.Transition.Offering
import ChainLedger.Transition.Purchase
import ChainLedger.Transition.Stake

/-!
# What commits do to offerings, purchases and stakes

For each commit about administrators, offerings, deposits, stakes and pools:
what it found, what it wrote, and that the ledgers it leaves are later ones.
-/

namespace ChainLedger

variable {l l' : Ledgers} {clock : Clock} {fx : List Effect}

/-! ## Administrators -/

namespace AdminChange

variable {p : AdminChange}

theorem of_apply (h : p.apply clock l = .ok (l', fx)) :
    ∃ admin admins, l.admins.get? p.wallet.checksummed = some admin ∧ ¬ admin.inSync p ∧
      l.admins.update (clock 0) p.wallet.checksummed (fun a =>
        { a with role := p.role, status := p.status, onChainStatus := .onChain }) = .ok admins ∧
      l' = { l with admins := admins } ∧ fx = [] := by
  simp only [apply, bind_eq_ok, orRefuse_eq_ok, require_eq_ok, pure_eq_ok, Prod.mk.injEq] at h
  obtain ⟨admin, hadmin, -, hsync, admins, hadmins, rfl, rfl⟩ := h
  exact ⟨admin, admins, hadmin, hsync, hadmins, rfl, rfl⟩

theorem follows_apply (h : p.apply clock l = .ok (l', fx)) : l.Follows l' := by
  obtain ⟨admin, admins, -, -, hadmins, rfl, -⟩ := of_apply h
  have ha := Collection.revises_update hadmins Later.refl fun a t _ ht => .of_stamp ht rfl
  exact { Ledgers.Follows.refl l with admins := ha }

end AdminChange

/-! ## Offerings -/

namespace OfferingRef

variable {p : OfferingRef}

theorem of_create (h : p.create clock l = .ok (l', fx)) :
    ∃ offering offerings assets, l.offerings.get? p.offeringId = some offering ∧
      offering.status = .active ∧ offering.onChainStatus = .draft ∧
      l.offerings.update (clock 0) p.offeringId (fun o => { o with onChainStatus := .onChain }) =
        .ok offerings ∧
      l.assets.updateMany (clock 1) (fun a => (l.assetsBehind (nftsOf l offering)).contains a.id)
        (fun a => { a with status := advance a.status .iaoEvent }) = .ok assets ∧
      l' = { l with offerings := offerings, assets := assets } ∧ fx = [p.notice "created"] := by
  simp only [create, bind_eq_ok, orRefuse_eq_ok, require_eq_ok, pure_eq_ok, Prod.mk.injEq] at h
  obtain ⟨offering, hget, -, hstatus, offerings, hofferings, assets, hassets, rfl, rfl⟩ := h
  exact ⟨offering, offerings, assets, hget, hstatus.1, hstatus.2, hofferings, hassets, rfl, rfl⟩

theorem follows_create (h : p.create clock l = .ok (l', fx)) : l.Follows l' := by
  obtain ⟨offering, offerings, assets, -, -, -, hofferings, hassets, rfl, -⟩ := of_create h
  have ho := Collection.revises_update hofferings Later.refl fun o t _ ht =>
    .of_stamp ht ⟨rfl, id, fun _ => rfl, fun _ => rfl, List.prefix_rfl⟩
  have ha := Collection.revises_updateMany hassets Later.refl fun a t _ ht =>
    .of_stamp ht ⟨rfl, rfl, Nat.le_refl _⟩
  exact { Ledgers.Follows.refl l with offerings := ho, assets := ha }

theorem of_deactivate (h : p.deactivate clock l = .ok (l', fx)) :
    ∃ offering offerings, l.offerings.get? p.offeringId = some offering ∧
      offering.status = .active ∧
      l.offerings.update (clock 0) p.offeringId (fun o => { o with status := .inactive }) =
        .ok offerings ∧
      l' = { l with offerings := offerings } ∧ fx = [p.notice "deactivated"] := by
  simp only [deactivate, bind_eq_ok, orRefuse_eq_ok, require_eq_ok, pure_eq_ok,
    Prod.mk.injEq] at h
  obtain ⟨offering, hget, -, hstatus, offerings, hofferings, rfl, rfl⟩ := h
  exact ⟨offering, offerings, hget, hstatus, hofferings, rfl, rfl⟩

theorem follows_deactivate (h : p.deactivate clock l = .ok (l', fx)) : l.Follows l' := by
  obtain ⟨offering, offerings, -, -, hofferings, rfl, -⟩ := of_deactivate h
  have ho := Collection.revises_update hofferings Later.refl fun o t _ ht =>
    .of_stamp ht ⟨rfl, fun _ => rfl, id, fun _ => rfl, List.prefix_rfl⟩
  exact { Ledgers.Follows.refl l with offerings := ho }

theorem of_reject (h : p.reject clock l = .ok (l', fx)) :
    ∃ offering offerings, l.offerings.get? p.offeringId = some offering ∧
      offering.revenue.status = .pending ∧
      l.offerings.update (clock 1) p.offeringId (fun o =>
        { o with
          revenue := { o.revenue with
            status := .rejected, finalizedBy := p.sender,
            finalizedOn := some (clock 0 p.offeringId) } }) =
        .ok offerings ∧
      l' = { l with offerings := offerings } ∧
      fx = [.email "revenue-rejected" offering.beneficiaryId
        (.obj [("offeringId", .str p.offeringId)])] := by
  simp only [reject, bind_eq_ok, orRefuse_eq_ok, require_eq_ok, pure_eq_ok, Prod.mk.injEq] at h
  obtain ⟨offering, hget, -, hstatus, offerings, hofferings, rfl, rfl⟩ := h
  exact ⟨offering, offerings, hget, hstatus, hofferings, rfl, rfl⟩

theorem follows_reject (h : p.reject clock l = .ok (l', fx)) : l.Follows l' := by
  obtain ⟨offering, offerings, hget, hpending, hofferings, rfl, -⟩ := of_reject h
  have ho := Collection.revises_update hofferings Later.refl fun o t ho ht => by
    obtain rfl := Option.some.inj (hget.symm.trans ho)
    exact .of_stamp ht ⟨rfl, id, id, fun hne => absurd hpending hne, List.prefix_rfl⟩
  exact { Ledgers.Follows.refl l with offerings := ho }

end OfferingRef

/-! ## Deposits -/

namespace FundDeposit

variable {p : FundDeposit} {txHash : String}

/-- A deposit that may be settled is settled under the hash of its
transaction. -/
theorem of_settleable {o : Origin} (h : p.settleable o l = .ok txHash) :
    o.txHash = some txHash ∧ ¬ (p.amount ≤ .zero ∨ p.value < .zero) ∧
      l.purchases.get? txHash = none := by
  simp only [settleable, Origin.requireTxHash, bind_eq_ok, orRefuse_eq_ok, require_eq_ok,
    pure_eq_ok] at h
  obtain ⟨_, hhash, -, hamounts, -, hfree, rfl⟩ := h
  exact ⟨hhash, hamounts, Collection.not_contains_iff.mp hfree⟩

/-- The rest of an offering after a deposit. -/
theorem of_offeringRest {offering : Offering} {rest : Decimal}
    (h : p.offeringRest txHash offering = .ok rest) :
    offering.availableSupply.sub? p.amount = some rest ∧ ¬ rest < .zero := by
  simp only [offeringRest, bind_eq_ok, trapped_eq_ok, Decimal.sub_eq_ok, require_eq_ok,
    pure_eq_ok] at h
  obtain ⟨rest, hrest, -, hneg, rfl⟩ := h
  exact ⟨hrest, hneg⟩

/-- The rest of a fractional token after a deposit. -/
theorem of_fnftRest {id : String} {fnft : Fnft} {rest : Decimal}
    (h : p.fnftRest txHash id fnft = .ok rest) :
    fnft.availableSupply.sub? p.amount = some rest ∧ ¬ rest < .zero := by
  simp only [fnftRest, bind_eq_ok, trapped_eq_ok, Decimal.sub_eq_ok, require_eq_ok,
    pure_eq_ok] at h
  obtain ⟨rest, hrest, -, hneg, rfl⟩ := h
  exact ⟨hrest, hneg⟩

/-- **What a deposit finds and writes** when it is settled. -/
structure Settling (p : FundDeposit) (txHash : String) (clock : Clock) (l : Ledgers) where
  offering : Offering
  fnft : Fnft
  offeringRest : Decimal
  fnftRest : Decimal
  soldValue : Decimal
  purchased : Decimal
  deposited : Decimal
  purchases : Collection Purchase
  offerings : Collection Offering
  fnfts : Collection Fnft
  whitelist : Collection WhitelistEntry
  fresh : l.purchases.get? txHash = none
  offering_found : l.offerings.get? p.offeringId = some offering
  onChain : offering.onChainStatus = .onChain
  fnft_found : l.fnfts.get? offering.fnftId = some fnft
  offering_drawn : p.offeringRest txHash offering = .ok offeringRest
  fnft_drawn : p.fnftRest txHash offering.fnftId fnft = .ok fnftRest
  sold : offering.soldValue.add? p.value = some soldValue
  totals : p.totals l = .ok (purchased, deposited)
  purchase_inserted : l.purchases.insert (clock 1)
    ⟨txHash, p.offeringId, p.buyer, p.amount, p.value, clock 0 txHash⟩ = .ok purchases
  offering_updated : l.offerings.update (clock 2) p.offeringId (fun o =>
    { o with availableSupply := offeringRest, soldValue := soldValue }) = .ok offerings
  fnft_updated : l.fnfts.update (clock 3) offering.fnftId (fun f =>
    { f with availableSupply := fnftRest }) = .ok fnfts
  recorded : p.record (clock.later 4) purchased deposited l.whitelist = .ok whitelist

/-- The ledgers after a deposit. -/
def Settling.after (s : Settling p txHash clock l) : Ledgers :=
  { l with
    purchases := s.purchases, offerings := s.offerings, fnfts := s.fnfts,
    whitelist := s.whitelist }

theorem of_settle (h : p.settle txHash clock l = .ok (l', fx)) :
    ∃ s : Settling p txHash clock l, l' = s.after ∧ fx = [p.notice s.offeringRest] := by
  simp only [settle, bind_eq_ok, orRefuse_eq_ok, require_eq_ok, orOverflow_eq_ok, pure_eq_ok,
    Prod.mk.injEq, Prod.exists] at h
  obtain ⟨-, hfree, offering, hget, -, hchain, rest, hrest, fnft, hfnft, fnftRest, hfnftRest,
    soldValue, hsold, purchased, deposited, htotals, purchases, hpurchases, offerings, hofferings,
    fnfts, hfnfts, whitelist, hwhitelist, rfl, rfl⟩ := h
  have hfresh := Collection.not_contains_iff.mp hfree
  exact ⟨⟨offering, fnft, rest, fnftRest, soldValue, purchased, deposited, purchases, offerings,
    fnfts, whitelist, hfresh, hget, hchain, hfnft, hrest, hfnftRest, hsold, htotals, hpurchases,
    hofferings, hfnfts, hwhitelist⟩, rfl, rfl⟩

theorem grows_record {purchased deposited : Decimal} {w w' : Collection WhitelistEntry}
    (h : p.record clock purchased deposited w = .ok w') : w.Grows w' := by
  unfold record at h
  split at h
  · exact (Collection.revises_update h Later.refl fun a t _ ht => .of_stamp ht ⟨rfl, rfl⟩).grows
  · exact Collection.grows_insert h

theorem follows_settle (h : p.settle txHash clock l = .ok (l', fx)) : l.Follows l' := by
  obtain ⟨s, rfl, -⟩ := of_settle h
  have ho := Collection.revises_update s.offering_updated Later.refl fun o t _ ht =>
    .of_stamp ht ⟨rfl, id, id, fun _ => rfl, List.prefix_rfl⟩
  have hf := Collection.revises_update s.fnft_updated Later.refl fun f t _ ht =>
    .of_stamp ht ⟨rfl, rfl, id, fun _ => rfl⟩
  exact { Ledgers.Follows.refl l with
    purchases := Collection.grows_insert s.purchase_inserted, offerings := ho, fnfts := hf,
    whitelist := grows_record s.recorded }

end FundDeposit

/-! ## Stakes -/

namespace StakeChange

variable {d : StakeDirection} {p : StakeChange} {txHash : String}

/-- A stake or unstake that makes sense goes under the hash of its transaction. -/
theorem of_sensible {o : Origin} (h : p.sensible d o = .ok txHash) :
    o.txHash = some txHash ∧ ¬ p.amount ≤ .zero := by
  simp only [sensible, Origin.requireTxHash, bind_eq_ok, orRefuse_eq_ok, require_eq_ok,
    pure_eq_ok] at h
  obtain ⟨_, hhash, -, hamount, rfl⟩ := h
  exact ⟨hhash, hamount⟩

theorem of_apply (h : p.apply d txHash clock l = .ok (l', fx)) :
    ∃ pool next stakes receipts, l.stakeReceipts.get? txHash = none ∧
      l.pools.get? p.poolId = some pool ∧ pool.status = .onChain ∧
      p.moved d (p.staked l) = some next ∧ ¬ next < .zero ∧
      p.record clock next l.stakes = .ok stakes ∧
      l.stakeReceipts.insert (clock 3)
        ⟨txHash, p.poolId, p.account, p.amount, d, clock 2 txHash⟩ = .ok receipts ∧
      l' = { l with stakes := stakes, stakeReceipts := receipts } ∧ fx = [] := by
  simp only [apply, bind_eq_ok, orRefuse_eq_ok, require_eq_ok, orOverflow_eq_ok, pure_eq_ok,
    Prod.mk.injEq] at h
  obtain ⟨-, hfree, pool, hpool, -, hchain, next, hnext, -, hneg, stakes, hstakes, receipts,
    hreceipts, rfl, rfl⟩ := h
  exact ⟨pool, next, stakes, receipts, Collection.not_contains_iff.mp hfree, hpool, hchain, hnext,
    hneg, hstakes, hreceipts, rfl, rfl⟩

theorem grows_record {next : Decimal} {s s' : Collection StakePosition}
    (h : p.record clock next s = .ok s') : s.Grows s' := by
  unfold record at h
  split at h
  · exact (Collection.revises_update h Later.refl fun a t _ ht => .of_stamp ht ⟨rfl, rfl⟩).grows
  · exact Collection.grows_insert h

theorem follows_apply (h : p.apply d txHash clock l = .ok (l', fx)) : l.Follows l' := by
  obtain ⟨pool, next, stakes, receipts, -, -, -, -, -, hstakes, hreceipts, rfl, -⟩ := of_apply h
  exact { Ledgers.Follows.refl l with
    stakes := grows_record hstakes, stakeReceipts := Collection.grows_insert hreceipts }

end StakeChange

namespace PoolCreated

variable {p : PoolCreated}

theorem of_apply (h : p.apply clock l = .ok (l', fx)) :
    ∃ pool pools, l.pools.get? p.poolId = some pool ∧ pool.status = .draft ∧
      l.pools.update (clock 0) p.poolId (fun q =>
        { q with status := .onChain, token := if p.token.isSome then p.token else q.token }) =
        .ok pools ∧
      l' = { l with pools := pools } ∧ fx = [] := by
  simp only [apply, bind_eq_ok, orRefuse_eq_ok, require_eq_ok, pure_eq_ok, Prod.mk.injEq] at h
  obtain ⟨pool, hpool, -, hdraft, pools, hpools, rfl, rfl⟩ := h
  exact ⟨pool, pools, hpool, hdraft, hpools, rfl, rfl⟩

theorem follows_apply (h : p.apply clock l = .ok (l', fx)) : l.Follows l' := by
  obtain ⟨pool, pools, hpool, hdraft, hpools, rfl, -⟩ := of_apply h
  have hp := Collection.revises_update hpools Later.refl fun q t hget ht => by
    obtain rfl := Option.some.inj (hpool.symm.trans hget)
    exact .of_stamp ht ⟨rfl, hdraft, rfl⟩
  exact { Ledgers.Follows.refl l with pools := hp }

end PoolCreated

end ChainLedger
