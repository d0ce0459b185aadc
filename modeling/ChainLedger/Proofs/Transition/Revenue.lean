import ChainLedger.Proofs.Ledger.Revenue
import ChainLedger.Transition.Approval
import ChainLedger.Transition.Claim

/-!
# What commits do to revenue

For approvals and claims: what the commit found, what it wrote, and that the
ledgers it leaves are later ones.
-/

namespace ChainLedger

variable {l l' : Ledgers} {clock : Clock} {fx : List Effect}

/-! ## Approvals -/

namespace RevenueApproval

variable {o : Origin} {p : RevenueApproval} {plan : Plan} {rate commission amount : Decimal}

theorem of_plan (h : p.plan o l = .ok plan) :
    o.txHash = some plan.txHash ∧ ¬ p.amount ≤ .zero ∧
      l.offerings.get? p.offeringId = some plan.offering ∧
      plan.offering.revenue.status ≠ .rejected ∧
      plan.txHash ∉ plan.offering.revenue.approvedTransactions ∧
      RevenueSplit.of p.amount plan.offering.revenue.platformRate plan.offering.revenue.bdRate
        plan.offering.bdId.isSome = .ok plan.split := by
  simp only [RevenueApproval.plan, bind_eq_ok, Origin.requireTxHash, orRefuse_eq_ok,
    require_eq_ok, pure_eq_ok] at h
  obtain ⟨txHash, hhash, -, hamount, offering, hget, -, hstatus, -, hnew, split, hsplit, rfl⟩ := h
  exact ⟨hhash, hamount, hget, hstatus, hnew, hsplit⟩

theorem of_apply (h : p.apply plan rate commission clock l = .ok (l', fx)) :
    ∃ offering offerings credited,
      l.offerings.get? plan.offering.id = some offering ∧
      offering.updatedAt = plan.offering.updatedAt ∧
      l.offerings.update (clock 1) plan.offering.id (fun o =>
        { o with
          revenue := p.approved (clock 0 plan.offering.id) plan.txHash commission o.revenue }) =
        .ok offerings ∧
      creditShare (clock.later 2) plan.offering rate plan.offering.beneficiaryId plan.split.owner
        { l with offerings := offerings } = .ok credited ∧
      creditPartner (clock.later 4) plan rate credited = .ok l' ∧ fx = effects plan := by
  simp only [apply, bind_eq_ok, pure_eq_ok, Prod.mk.injEq] at h
  obtain ⟨offerings, hofferings, credited, hcredited, _, hpartner, rfl, rfl⟩ := h
  unfold Collection.updateIfUnchanged at hofferings
  split at hofferings
  · cases hofferings
  · next offering hget =>
    split at hofferings
    · next hmark =>
      exact ⟨offering, offerings, credited, hget, hmark, hofferings, hcredited, hpartner, rfl⟩
    · cases hofferings

theorem follows_creditShare {offering : Offering} {beneficiary : String} (hl : l.Keyed)
    (h : creditShare clock offering rate beneficiary amount l = .ok l') : l.Follows l' := by
  unfold creditShare at h
  split at h
  · obtain ⟨⟨id, l''⟩, hcredit, rfl⟩ := map_eq_ok.mp h
    exact Ledgers.follows_credit hl hcredit
  · cases h
    exact .refl l

theorem follows_creditPartner (hl : l.Keyed) (h : creditPartner clock plan rate l = .ok l') :
    l.Follows l' := by
  unfold creditPartner at h
  split at h
  · exact follows_creditShare hl h
  · cases h
    exact .refl l

/-- The shares are credited in the revenue, and nothing else changes. -/
theorem of_creditShare {offering : Offering} {beneficiary : String}
    (h : creditShare clock offering rate beneficiary amount l = .ok l') :
    l' = { l with revenue := l'.revenue } := by
  unfold creditShare at h
  split at h
  · obtain ⟨⟨id, l''⟩, hcredit, rfl⟩ := map_eq_ok.mp h
    rcases Ledgers.of_credit hcredit with ⟨-, -, -, -, -, -, -, rfl⟩ | ⟨-, -, -, -, -, rfl⟩
    · rfl
    · rfl
  · cases h
    rfl

theorem of_creditPartner (h : creditPartner clock plan rate l = .ok l') :
    l' = { l with revenue := l'.revenue } := by
  unfold creditPartner at h
  split at h
  · exact of_creditShare h
  · cases h
    rfl

/-- The offering of a plan is the one that the commit finds. -/
theorem Plan.offering_eq (hl : l.Keyed) (hplan : p.plan o l = .ok plan) :
    plan.offering.id = p.offeringId ∧ l.offerings.get? plan.offering.id = some plan.offering := by
  obtain ⟨-, -, hget, -⟩ := of_plan hplan
  have hid : plan.offering.id = p.offeringId := hl.offerings _ _ hget
  exact ⟨hid, hid ▸ hget⟩

theorem follows_apply (hl : l.Keyed) (hplan : p.plan o l = .ok plan)
    (h : p.apply plan rate commission clock l = .ok (l', fx)) : l.Follows l' := by
  obtain ⟨offering, offerings, credited, -, -, hofferings, hcredited, hpartner, -⟩ := of_apply h
  obtain ⟨-, -, -, hstatus, -⟩ := of_plan hplan
  have hget := (Plan.offering_eq hl hplan).2
  have ho := Collection.revises_update hofferings Later.refl fun o t ho ht => by
    obtain rfl := Option.some.inj (hget.symm.trans ho)
    refine .of_stamp ht ⟨rfl, id, id, fun hne => ?_, List.prefix_append _ _⟩
    show RevenueStatus.approved = plan.offering.revenue.status
    cases hs : plan.offering.revenue.status with
    | pending => exact absurd hs hne
    | approved => rfl
    | rejected => exact absurd hs hstatus
  have h₁ : l.Follows { l with offerings := offerings } :=
    { Ledgers.Follows.refl l with offerings := ho }
  have h₂ := follows_creditShare (h₁.keyed hl) hcredited
  exact (h₁.trans h₂).trans (follows_creditPartner (h₂.keyed (h₁.keyed hl)) hpartner)

end RevenueApproval

/-! ## Claims -/

namespace RevenueClaim

variable {p : RevenueClaim} {txHash : String} {request : WithdrawalRequest}
  {item : WithdrawalItem}

theorem of_claimable (h : p.claimable l = .ok (request, item)) :
    l.withdrawals.get? p.requestId = some request ∧
      (request.status = .requesting ∨ request.status = .processing) ∧
      request.items.find? (·.currency = p.currency) = some item ∧ item.txHash = none := by
  simp only [claimable, bind_eq_ok, orRefuse_eq_ok, require_eq_ok] at h
  obtain ⟨request, hrequest, -, hstatus, item, hitem, h⟩ := h
  split at h
  · cases h
  · next hnone =>
    rw [pure_eq_ok, Prod.mk.injEq] at h
    obtain ⟨rfl, rfl⟩ := h
    exact ⟨hrequest, hstatus, hitem, hnone⟩

/-- A claim that may be applied is applied under the hash of its transaction. -/
theorem of_applicable {o : Origin} (h : p.applicable o l = .ok txHash) :
    o.txHash = some txHash := by
  simp only [applicable, Origin.requireTxHash, bind_eq_ok, orRefuse_eq_ok, pure_eq_ok] at h
  obtain ⟨_, hhash, -, -, rfl⟩ := h
  exact hhash

theorem of_apply (h : p.apply txHash clock l = .ok (l', fx)) :
    ∃ request item held closed withdrawals,
      p.claimable l = .ok (request, item) ∧
      p.closeAll clock request.beneficiaryId item.offeringIds .zero l = .ok (held, closed) ∧
      held.sameValue item.amount ∧
      closed.withdrawals.update (clock item.offeringIds.length) p.requestId (p.settled txHash) =
        .ok withdrawals ∧
      l' = { closed with withdrawals := withdrawals } ∧
      fx = p.effects (p.settled txHash request) := by
  simp only [apply, bind_eq_ok, require_eq_ok, pure_eq_ok, Prod.mk.injEq, Prod.exists] at h
  obtain ⟨request, item, hclaimable, held, closed, hclosed, -, hheld, withdrawals, hwithdrawals,
    rfl, rfl⟩ := h
  exact ⟨request, item, held, closed, withdrawals, hclaimable, hclosed, hheld, hwithdrawals, rfl,
    rfl⟩

/-- Closing the entries of some offerings changes nothing but the revenue,
and leaves later ledgers. -/
theorem follows_closeAll {beneficiary : String} {offeringIds : List String}
    {total held : Decimal}
    (h : p.closeAll clock beneficiary offeringIds total l = .ok (held, l')) :
    l.Follows l' ∧ l' = { l with revenue := l'.revenue } := by
  induction offeringIds generalizing clock total l with
  | nil =>
    cases h
    exact ⟨.refl _, rfl⟩
  | cons offering rest ih =>
    simp only [closeAll, bind_eq_ok, Prod.exists] at h
    obtain ⟨closed, l₁, hmark, sum, -, hrest⟩ := h
    obtain ⟨hf, heq⟩ := ih hrest
    obtain ⟨revenue, -, -, rfl⟩ := Ledgers.of_markWithdrawn hmark
    exact ⟨(Ledgers.follows_markWithdrawn hmark).trans hf, heq⟩

/-- Items are marked one by one. -/
theorem forall₂_markItems (items : List WithdrawalItem) (currency : Address) :
    List.Forall₂ WithdrawalItem.Becomes items (markItems currency txHash items) := by
  unfold markItems
  rw [List.forall₂_map_right_iff, List.forall₂_same]
  intro i _
  split
  · exact ⟨rfl, rfl, rfl, fun _ => rfl⟩
  · exact ⟨rfl, rfl, rfl, id⟩

theorem follows_apply (h : p.apply txHash clock l = .ok (l', fx)) : l.Follows l' := by
  obtain ⟨request, item, held, closed, withdrawals, -, hclosed, -, hwithdrawals, rfl, -⟩ :=
    of_apply h
  have hc := (follows_closeAll hclosed).1
  have hw := Collection.revises_update hwithdrawals Later.refl fun r t _ ht =>
    .of_stamp ht ⟨rfl, rfl, rfl, forall₂_markItems r.items p.currency⟩
  exact hc.trans { Ledgers.Follows.refl closed with withdrawals := hw }

end RevenueClaim

end ChainLedger
