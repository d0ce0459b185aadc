import ChainLedger.Proofs.Transition.Payout

/-!
# What approvals credit and claims close

An approval credits the share of the owner and then that of the partner, each
if it is positive; both may be for one account. A claim closes the accounts
of the beneficiary that its item covers.
-/

namespace ChainLedger

variable {l l' : Ledgers} {clock : Clock} {fx : List Effect}

/-- What an account gets of a share: all of it, if the share is its own and
there is any. -/
def shareOf (owner : Account) (amount : Decimal) (a : Account) : List Decimal :=
  if a = owner ∧ Decimal.zero < amount then [amount] else []

/-- What an account gets of the share of a partner, if there is one. -/
def partnerShareOf (partner : Option Account) (amount : Decimal) (a : Account) : List Decimal :=
  match partner with
  | some b => shareOf b amount a
  | none => []

/-! ## Approvals -/

namespace RevenueApproval

variable {o : Origin} {p : RevenueApproval} {plan : Plan} {rate commission amount : Decimal}

theorem credits_creditShare {offering : Offering} {beneficiary : String} (hl : l.Keyed)
    (hs : l.SingleOpen) (h : creditShare clock offering rate beneficiary amount l = .ok l') :
    Ledgers.Credits (shareOf ⟨beneficiary, offering.id, offering.currency⟩ amount) l l' := by
  unfold creditShare at h
  split at h
  · next hpos =>
    obtain ⟨⟨id, l''⟩, hcredit, rfl⟩ := map_eq_ok.mp h
    have hshare : shareOf ⟨beneficiary, offering.id, offering.currency⟩ amount =
        fun a => if a = ⟨beneficiary, offering.id, offering.currency⟩ then [amount] else [] := by
      funext a
      simp only [shareOf, hpos, and_true]
    rw [hshare]
    exact Ledgers.credits_credit hl hs hcredit
  · next hpos =>
    have hshare : shareOf ⟨beneficiary, offering.id, offering.currency⟩ amount =
        fun _ => [] := by
      funext a
      simp only [shareOf, hpos, and_false, if_false]
    rw [hshare]
    cases h
    exact .of_revenue_eq hs rfl

/-- The account of the partner of an offering, if it has one. -/
def partnerAccount (offering : Offering) : Option Account :=
  offering.bdId.map fun bdId => ⟨bdId, offering.id, offering.currency⟩

theorem credits_creditPartner (hl : l.Keyed) (hs : l.SingleOpen)
    (h : creditPartner clock plan rate l = .ok l') :
    Ledgers.Credits (partnerShareOf (partnerAccount plan.offering) plan.split.bd) l l' := by
  unfold creditPartner at h
  cases hbd : plan.offering.bdId with
  | none =>
    rw [hbd] at h
    cases h
    simp only [partnerAccount, hbd, Option.map_none]
    exact .of_revenue_eq hs rfl
  | some bdId =>
    rw [hbd] at h
    simp only [partnerAccount, hbd, Option.map_some]
    exact credits_creditShare hl hs h

/-- **An approval credits the owner and the partner.** -/
theorem credits_apply (hl : l.Keyed) (hs : l.SingleOpen)
    (h : p.apply plan rate commission clock l = .ok (l', fx)) :
    Ledgers.Credits (fun a =>
      shareOf ⟨plan.offering.beneficiaryId, plan.offering.id, plan.offering.currency⟩
        plan.split.owner a ++
      partnerShareOf (partnerAccount plan.offering) plan.split.bd a) l l' := by
  obtain ⟨-, offerings, credited, -, -, hofferings, hcredited, hpartner, -⟩ := of_apply h
  have hkeyed : Ledgers.Keyed { l with offerings := offerings } :=
    { hl with offerings := Collection.keyed_update hofferings (fun _ => rfl) hl.offerings }
  have hkeyed' := (follows_creditShare hkeyed hcredited).keyed hkeyed
  have howner := credits_creditShare (l := { l with offerings := offerings }) hkeyed hs hcredited
  exact Ledgers.Credits.trans ⟨howner.single, howner.accrues, howner.closed⟩
    (credits_creditPartner hkeyed' howner.single hpartner)

/-- **An approval enters its hash and the share of the platform** in its
offering, and leaves the others. -/
theorem offerings_apply (hl : l.Keyed) (hplan : p.plan o l = .ok plan)
    (hcommission : RevenueApproval.commission plan = .ok commission)
    (h : p.apply plan rate commission clock l = .ok (l', fx)) (k : String) :
    Option.Rel (fun a b =>
      if p.offeringId = k then
        b.revenue.approvedTransactions = a.revenue.approvedTransactions ++ [plan.txHash] ∧
          plan.txHash ∉ a.revenue.approvedTransactions ∧
          a.revenue.platformCommission.add? plan.split.platform = some b.revenue.platformCommission
      else
        b.revenue.approvedTransactions = a.revenue.approvedTransactions ∧
          b.revenue.platformCommission = a.revenue.platformCommission)
      (l.offerings.get? k) (l'.offerings.get? k) := by
  obtain ⟨-, -, hget, -, hnew, -⟩ := of_plan hplan
  obtain ⟨hid, -⟩ := Plan.offering_eq hl hplan
  obtain ⟨-, offerings, credited, -, -, hofferings, hcredited, hpartner, -⟩ := of_apply h
  have hwritten : l'.offerings = offerings := by
    rw [of_creditPartner hpartner, of_creditShare hcredited]
  rw [hwritten]
  rw [hid] at hofferings
  refine (Collection.rel_update hofferings k).imp fun a b ha hab => ?_
  by_cases hk : p.offeringId = k
  · rw [if_pos hk] at hab ⊢
    obtain ⟨t, -, rfl⟩ := hab
    obtain rfl := Option.some.inj (hget.symm.trans (hk ▸ ha))
    exact ⟨rfl, hnew, orOverflow_eq_ok.mp hcommission⟩
  · rw [if_neg hk] at hab ⊢
    rw [hab]
    exact ⟨rfl, rfl⟩

end RevenueApproval

/-! ## Claims -/

namespace RevenueClaim

variable {p : RevenueClaim} {txHash : String}

/-- A claim leaves the offerings alone. -/
theorem offerings_apply (h : p.apply txHash clock l = .ok (l', fx)) :
    l'.offerings = l.offerings := by
  obtain ⟨_, _, _, closed, _, -, hclosed, -, -, rfl, -⟩ := of_apply h
  show closed.offerings = l.offerings
  rw [(follows_closeAll hclosed).2]

/-- **A claim closes the accounts that its item covers.** -/
theorem closes_apply (hs : l.SingleOpen) (h : p.apply txHash clock l = .ok (l', fx)) :
    ∃ request item, l.withdrawals.get? p.requestId = some request ∧
      request.items.find? (·.currency = p.currency) = some item ∧
      Ledgers.Closes (item.offeringIds.map fun k => ⟨request.beneficiaryId, k, p.currency⟩)
        l l' := by
  obtain ⟨request, item, hclaimable, hshuts, -⟩ := of_apply_closes h
  obtain ⟨hrequest, -, hitem, -⟩ := of_claimable hclaimable
  have hcurrency : item.currency = p.currency := by simpa using List.find?_some hitem
  refine ⟨request, item, hrequest, hitem, ?_⟩
  rw [← hcurrency]
  exact hshuts.closes hs

end RevenueClaim

end ChainLedger
