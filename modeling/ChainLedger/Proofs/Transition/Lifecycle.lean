import ChainLedger.Proofs.Transition.Writing
import Mathlib.Logic.Relation

/-!
# The edges that statuses take

Custody moves forward along its pipeline, and so do assets and tokens, unless
a fractional token is deactivated, which takes back the tokens that it lists
and the assets behind them and no others. All other statuses have a few edges
and take no others. `Event.Edges` says so of one event, and every event that
is applied keeps to it (`Event.Changes.edges`).
-/

namespace ChainLedger

open Collection
open Relation (ReflGen)

/-! ## Edges -/

/-- The edges in the life of a fractional token. -/
inductive FnftStatus.Edge : FnftStatus → FnftStatus → Prop
  | mint : Edge .draft .active
  | deactivate : Edge .active .inactive
  | merge : Edge .active .merged

/-- A record goes out of use, and does not come back. -/
inductive RecordStatus.Edge : RecordStatus → RecordStatus → Prop
  | deactivate : Edge .active .inactive

/-- A record comes into being on its chain, once. -/
inductive OnChainStatus.Edge : OnChainStatus → OnChainStatus → Prop
  | create : Edge .draft .onChain

/-- Revenue that is pending is approved or rejected, for good. -/
inductive RevenueStatus.Edge : RevenueStatus → RevenueStatus → Prop
  | approve : Edge .pending .approved
  | reject : Edge .pending .rejected

/-- An offering takes at most one edge of each kind. -/
structure Offering.Moves (a b : Offering) : Prop where
  status : ReflGen RecordStatus.Edge a.status b.status
  onChainStatus : ReflGen OnChainStatus.Edge a.onChainStatus b.onChainStatus
  revenue : ReflGen RevenueStatus.Edge a.revenue.status b.revenue.status

/-- An open request is claimed: it is successful then if all of its items are
paid out, and in process otherwise. -/
structure WithdrawalRequest.Claimed (a b : WithdrawalRequest) : Prop where
  wasOpen : a.status = .requesting ∨ a.status = .processing
  goesOn : b.status = .processing ∨ b.status = .successful
  successful : b.status = .successful ↔ ∀ i ∈ b.items, i.txHash.isSome = true

/-- **The edges that an event takes.** -/
structure Event.Edges (e : Event) (l l' : Ledgers) : Prop where
  /-- Custody does not move backward. -/
  custody : Revises (fun a b => Pipeline.place a.custody ≤ Pipeline.place b.custody)
    l.assets l'.assets
  /-- Neither do assets, unless a fractional token is deactivated. -/
  assets : (∀ p, e.payload ≠ .deactivateFnft p) →
    Revises (fun a b => Pipeline.place a.status ≤ Pipeline.place b.status) l.assets l'.assets
  /-- Neither do tokens, unless a fractional token is deactivated. -/
  nfts : (∀ p, e.payload ≠ .deactivateFnft p) →
    Revises (fun a b => Pipeline.place a.status ≤ Pipeline.place b.status) l.nfts l'.nfts
  /-- A fractional token that is deactivated was active, and only the tokens
  that it lists and the assets behind them change. -/
  deactivated : ∀ p, e.payload = .deactivateFnft p →
    ∃ fnft, l.fnfts.get? p.fnftId = some fnft ∧ fnft.status = .active ∧
      (∀ k, k ∉ fnft.nftIds → l'.nfts.get? k = l.nfts.get? k) ∧
      ∀ k, k ∉ l.assetsBehind fnft.nftIds → l'.assets.get? k = l.assets.get? k
  fnfts : Revises (fun a b => ReflGen FnftStatus.Edge a.status b.status) l.fnfts l'.fnfts
  offerings : Revises Offering.Moves l.offerings l'.offerings
  /-- A request is as it was, or it is claimed. -/
  withdrawals : Revises
    (fun a b => b = a ∨ (∃ p, e.payload = .claimRevenue p ∧ p.requestId = a.id) ∧ a.Claimed b)
    l.withdrawals l'.withdrawals
  pools : Revises (fun a b => ReflGen OnChainStatus.Edge a.status b.status) l.pools l'.pools

/-! ## What is written takes edges -/

namespace RevenueClaim

/-- A request is successful exactly if all of its items are paid out. -/
theorem statusOf_eq_successful_iff (items : List WithdrawalItem) :
    statusOf items = .successful ↔ ∀ i ∈ items, i.txHash.isSome = true := by
  rw [← List.all_eq_true]
  unfold statusOf
  split <;> simp_all

theorem claimed_settled {p : RevenueClaim} {txHash : String} {r : WithdrawalRequest} {t : Instant}
    (h : r.status = .requesting ∨ r.status = .processing) :
    r.Claimed (Document.stamp t (p.settled txHash r)) := by
  refine ⟨h, ?_, statusOf_eq_successful_iff _⟩
  show statusOf _ = _ ∨ statusOf _ = _
  unfold statusOf
  split
  · exact .inr rfl
  · exact .inl rfl

end RevenueClaim

namespace Payload.Writes

variable {l l' : Ledgers} {p : Payload} {w : Writing}

theorem custody (hw : p.Writes l w) (h : w.Between l l') :
    Revises (fun a b => Pipeline.place a.custody ≤ Pipeline.place b.custody)
      l.assets l'.assets := by
  refine h.assets.revises (fun _ => Nat.le_refl _) fun k hk a t ha => ?_
  cases hw with
  | mintFnft | mergeFnft | redeemNft => exact place_le_advance _ _
  | depositNft hasset hcustody =>
    obtain rfl := eq_of_mem_singleton hasset hk ha
    show Pipeline.place _ ≤ Pipeline.place CustodyStatus.frac
    rcases hcustody with hc | hc <;> rw [hc] <;> decide
  | _ => exact Nat.le_refl _

theorem assets (hw : p.Writes l w) (h : w.Between l l') (hp : ∀ q, p ≠ .deactivateFnft q) :
    Revises (fun a b => Pipeline.place a.status ≤ Pipeline.place b.status) l.assets l'.assets := by
  refine h.assets.revises (fun _ => Nat.le_refl _) fun k hk a t ha => ?_
  cases hw with
  | mintNft | mintFnft | createOffering | redeemNft => exact place_le_advance _ _
  | deactivateFnft => exact absurd rfl (hp _)
  | _ => exact Nat.le_refl _

theorem nfts (hw : p.Writes l w) (h : w.Between l l') (hp : ∀ q, p ≠ .deactivateFnft q) :
    Revises (fun a b => Pipeline.place a.status ≤ Pipeline.place b.status) l.nfts l'.nfts := by
  refine h.nfts.revises (fun _ => Nat.le_refl _) fun k hk a t ha => ?_
  cases hw with
  | mintNft hnft hdraft =>
    obtain rfl := eq_of_mem_singleton hnft hk ha
    show Pipeline.place _ ≤ Pipeline.place NftStatus.minted
    rw [hdraft]
    decide
  | mintFnft => exact place_le_advance _ _
  | redeemNft =>
    show Pipeline.place a.status ≤ Pipeline.place NftStatus.redeemed
    cases a.status <;> decide
  | deactivateFnft => exact absurd rfl (hp _)
  | _ => exact Nat.le_refl _

theorem deactivated {q : FnftRef} (hw : (Payload.deactivateFnft q).Writes l w)
    (h : w.Between l l') :
    ∃ fnft, l.fnfts.get? q.fnftId = some fnft ∧ fnft.status = .active ∧
      (∀ k, k ∉ fnft.nftIds → l'.nfts.get? k = l.nfts.get? k) ∧
      ∀ k, k ∉ l.assetsBehind fnft.nftIds → l'.assets.get? k = l.assets.get? k := by
  cases hw with
  | deactivateFnft hfnft hactive =>
    exact ⟨_, hfnft, hactive, fun k hk => h.nfts.get?_of_not_mem hk,
      fun k hk => h.assets.get?_of_not_mem hk⟩
  | aside haside => cases haside

theorem fnfts (hw : p.Writes l w) (h : w.Between l l') :
    Revises (fun a b => ReflGen FnftStatus.Edge a.status b.status) l.fnfts l'.fnfts := by
  refine h.fnfts.revises (fun _ => .refl) fun k hk a t ha => ?_
  cases hw with
  | mintFnft hfnft hdraft =>
    obtain rfl := eq_of_mem_singleton hfnft hk ha
    exact .single (hdraft ▸ .mint)
  | deactivateFnft hfnft hactive =>
    obtain rfl := eq_of_mem_singleton hfnft hk ha
    exact .single (hactive ▸ .deactivate)
  | mergeFnft hfnft hactive =>
    obtain rfl := eq_of_mem_singleton hfnft hk ha
    exact .single (hactive ▸ .merge)
  | _ => exact .refl

theorem offerings (hw : p.Writes l w) (h : w.Between l l') :
    Revises Offering.Moves l.offerings l'.offerings := by
  refine h.offerings.revises (fun _ => ⟨.refl, .refl, .refl⟩) fun k hk a t ha => ?_
  cases hw with
  | createOffering hoffering hactive hdraft =>
    obtain rfl := eq_of_mem_singleton hoffering hk ha
    exact ⟨.refl, .single (hdraft ▸ .create), .refl⟩
  | deactivateOffering hoffering hactive =>
    obtain rfl := eq_of_mem_singleton hoffering hk ha
    exact ⟨.single (hactive ▸ .deactivate), .refl, .refl⟩
  | approveRevenue hoffering hstatus hnew =>
    obtain rfl := eq_of_mem_singleton hoffering hk ha
    refine ⟨.refl, .refl, ?_⟩
    show ReflGen RevenueStatus.Edge a.revenue.status .approved
    cases hs : a.revenue.status with
    | pending => exact .single .approve
    | approved => exact .refl
    | rejected => exact absurd hs hstatus
  | rejectRevenue hoffering hpending =>
    obtain rfl := eq_of_mem_singleton hoffering hk ha
    exact ⟨.refl, .refl, .single (hpending ▸ .reject)⟩
  | _ => exact ⟨.refl, .refl, .refl⟩

theorem withdrawals (hl : l.Keyed) (hw : p.Writes l w) (h : w.Between l l') :
    Revises
      (fun a b => b = a ∨ (∃ q, p = .claimRevenue q ∧ q.requestId = a.id) ∧ a.Claimed b)
      l.withdrawals l'.withdrawals := by
  refine h.withdrawals.revises (fun _ => .inl rfl) fun k hk a t ha => ?_
  cases hw with
  | @claimRevenue q request item txHash hclaimable =>
    obtain ⟨hrequest, hstatus, -, -⟩ := RevenueClaim.of_claimable hclaimable
    obtain rfl := eq_of_mem_singleton hrequest hk ha
    have hid : q.requestId = a.id := (hl.withdrawals _ _ hrequest).symm
    exact .inr ⟨⟨q, rfl, hid⟩, RevenueClaim.claimed_settled hstatus⟩
  | _ => exact absurd hk List.not_mem_nil

theorem pools (hw : p.Writes l w) (h : w.Between l l') :
    Revises (fun a b => ReflGen OnChainStatus.Edge a.status b.status) l.pools l'.pools := by
  refine h.pools.revises (fun _ => .refl) fun k hk a t ha => ?_
  cases hw with
  | createPool hpool hdraft =>
    obtain rfl := eq_of_mem_singleton hpool hk ha
    exact .single (hdraft ▸ .create)
  | _ => exact .refl

/-- An approval leaves the revenue of its offering approved. -/
theorem approved {q : RevenueApproval} (hw : (Payload.approveRevenue q).Writes l w)
    (h : w.Between l l') : l'.offerings.Holds q.offeringId (·.revenue.status = .approved) := by
  cases hw with
  | approveRevenue hoffering =>
    exact h.offerings.holds (List.mem_singleton_self _) hoffering fun _ => rfl
  | aside haside => cases haside

/-- A rejection leaves the revenue of its offering rejected. -/
theorem rejected {q : OfferingRef} (hw : (Payload.rejectRevenue q).Writes l w)
    (h : w.Between l l') : l'.offerings.Holds q.offeringId (·.revenue.status = .rejected) := by
  cases hw with
  | rejectRevenue hoffering =>
    exact h.offerings.holds (List.mem_singleton_self _) hoffering fun _ => rfl
  | aside haside => cases haside

end Payload.Writes

/-- **Revenue that is approved or rejected** stays so. -/
theorem Ledgers.Follows.finalized {l l' : Ledgers} {k : String} {s : RevenueStatus}
    (h : l.Follows l') (hs : s ≠ .pending) (ho : l.offerings.Holds k (·.revenue.status = s)) :
    l'.offerings.Holds k (·.revenue.status = s) := by
  refine h.offerings.still.holds (fun hab ha => ?_) ho
  rcases hab with rfl | ⟨-, hab⟩
  · exact ha
  · exact (hab.finalized (ha ▸ hs)).trans ha

/-- **Every event takes the edges that its kind may take.** -/
theorem Event.Changes.edges {e : Event} {l l' : Ledgers} {clock : Clock} {fx : List Effect}
    (hl : l.Keyed) (h : e.Changes clock l l' fx) : e.Edges l l' := by
  obtain ⟨w, hw, hbetween⟩ := h.writes hl
  exact
    { custody := hw.custody hbetween
      assets := hw.assets hbetween
      nfts := hw.nfts hbetween
      deactivated := fun p hp => Payload.Writes.deactivated (hp ▸ hw) hbetween
      fnfts := hw.fnfts hbetween
      offerings := hw.offerings hbetween
      withdrawals := hw.withdrawals hl hbetween
      pools := hw.pools hbetween }

end ChainLedger
