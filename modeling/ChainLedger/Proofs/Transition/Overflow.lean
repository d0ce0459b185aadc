import ChainLedger.Proofs.Ledger.Refusal
import ChainLedger.Proofs.Transition.Route

/-!
# Balances that leave the decimal range

Ten balances are kept by sums and products that may leave the range. For each
handler, `Overflows` says at which of them it comes to one that does, after
all that it checks and writes before; the handler is then refused with a
breach of that balance. `Event.Overflows` puts this together for a whole
attempt: one that saw some ledgers, was told some answers, and commits to
ledgers that may be later ones (`Event.Overflows.refused`).
-/

namespace ChainLedger

variable {l : Ledgers} {clock : Clock} {b : Balance}

/-! ## Deposits -/

namespace FundDeposit

variable {p : FundDeposit} {txHash : String}

/-- **A deposit that passes its checks**: it is new, and there is enough of the
offering and of its fractional token. -/
structure Passes (p : FundDeposit) (txHash : String) (l : Ledgers) (offering : Offering) :
    Prop where
  fresh : ¬ l.purchases.contains txHash
  found : l.offerings.get? p.offeringId = some offering
  onChain : offering.onChainStatus = .onChain
  covered : ∃ rest, p.offeringRest txHash offering = .ok rest
  coveredToo : ∃ fnft rest, l.fnfts.get? offering.fnftId = some fnft ∧
    p.fnftRest txHash offering.fnftId fnft = .ok rest

/-- **A deposit leaves the range** with what was sold of the offering, or with
what the buyer bought of it. -/
inductive Overflows (p : FundDeposit) (txHash : String) (l : Ledgers) : Balance → Prop
  | sold {offering} (hp : p.Passes txHash l offering)
      (h : offering.soldValue.add? p.value = none) :
      Overflows p txHash l (.soldValue p.offeringId)
  | bought {offering sold w} (hp : p.Passes txHash l offering)
      (hsold : offering.soldValue.add? p.value = some sold)
      (hw : l.whitelist.get? p.whitelistKey = some w)
      (h : w.purchasedAmount.add? p.amount = none ∨ w.depositedValue.add? p.value = none) :
      Overflows p txHash l (.whitelist p.whitelistKey)

/-- A deposit that passes its checks is refused as its sums are. -/
theorem Passes.settle_eq {offering : Offering} {r : Refusal} (hp : p.Passes txHash l offering)
    (h : (orOverflow (.soldValue p.offeringId) (offering.soldValue.add? p.value) >>= fun _ =>
      p.totals l) = .error r) : p.settle txHash clock l = .error r := by
  obtain ⟨hfresh, hfound, honChain, ⟨rest, hrest⟩, fnft, fnftRest, hfnft, hfnftRest⟩ := hp
  rw [settle, require_bind_of hfresh, hfound, orRefuse_some_bind, require_bind_of honChain, hrest,
    ok_bind, hfnft, orRefuse_some_bind, hfnftRest, ok_bind]
  cases hsold : offering.soldValue.add? p.value with
  | none =>
    rw [hsold] at h
    cases h
    rfl
  | some sold =>
    rw [hsold] at h
    show (p.totals l >>= _) = _
    rw [show p.totals l = .error r from h]
    rfl

theorem Overflows.settle_eq (h : p.Overflows txHash l b) :
    p.settle txHash clock l = .error (.breach (.overflow b)) := by
  cases h with
  | sold hp h =>
    refine hp.settle_eq ?_
    rw [h]
    rfl
  | bought hp hsold hw h =>
    refine hp.settle_eq ?_
    rw [hsold]
    show p.totals l = _
    unfold totals
    rw [hw]
    simp only
    split
    · next hpurchased hdeposited =>
      rcases h with h | h
      · cases hpurchased.symm.trans h
      · cases hdeposited.symm.trans h
    · rfl

end FundDeposit

/-! ## Stakes -/

namespace StakeChange

variable {d : StakeDirection} {p : StakeChange} {txHash : String}

/-- **A stake leaves the range**: it is new, and the pool is on its chain. -/
inductive Overflows (d : StakeDirection) (p : StakeChange) (txHash : String) (l : Ledgers) :
    Balance → Prop
  | staked {pool} (hfresh : ¬ l.stakeReceipts.contains txHash)
      (hpool : l.pools.get? p.poolId = some pool) (honChain : pool.status = .onChain)
      (h : p.moved d (p.staked l) = none) : Overflows d p txHash l (.stake p.account p.poolId)

theorem Overflows.apply_eq (h : p.Overflows d txHash l b) :
    p.apply d txHash clock l = .error (.breach (.overflow b)) := by
  cases h with
  | staked hfresh hpool honChain h =>
    rw [apply, require_bind_of hfresh, hpool, orRefuse_some_bind, require_bind_of honChain]
    simp only [h]
    rfl

end StakeChange

/-! ## Divisions of an amount -/

namespace RevenueSplit

variable {amount platformRate bdRate : Decimal} {hasBd : Bool}

/-- **Dividing an amount leaves the range** with a product, with the share of
the platform, or with what is left for the owner. -/
inductive Overflows (amount platformRate bdRate : Decimal) (hasBd : Bool) : Balance → Prop
  | platform (h : amount.mul? platformRate = none) :
      Overflows amount platformRate bdRate hasBd (.share platformRate amount)
  | partner {platform} (hp : share amount platformRate = .ok platform)
      (h : amount.mul? bdRate = none) :
      Overflows amount platformRate bdRate hasBd (.share bdRate amount)
  | together {platform bd} (hp : share amount platformRate = .ok platform)
      (hb : share amount bdRate = .ok bd) (hnone : hasBd = false) (h : platform.add? bd = none) :
      Overflows amount platformRate bdRate hasBd (.platformShare amount)
  | owner {platformShare bdShare platform bd} (hp : share amount platformRate = .ok platformShare)
      (hb : share amount bdRate = .ok bdShare)
      (htaken : taken amount platformShare bdShare hasBd = .ok (platform, bd))
      (h : (amount.sub? platform).bind (·.sub? bd) = none) :
      Overflows amount platformRate bdRate hasBd (.ownerShare amount)

theorem Overflows.of_eq (h : Overflows amount platformRate bdRate hasBd b) :
    RevenueSplit.of amount platformRate bdRate hasBd = .error (.breach (.overflow b)) := by
  cases h with
  | platform h =>
    rw [RevenueSplit.of, share, h]
    rfl
  | partner hp h =>
    rw [RevenueSplit.of, hp, ok_bind, share, h]
    rfl
  | together hp hb hnone h =>
    rw [RevenueSplit.of, hp, ok_bind, hb, ok_bind, taken, if_neg (by simp [hnone]), h]
    rfl
  | owner hp hb htaken h =>
    rw [RevenueSplit.of, hp, ok_bind, hb, ok_bind, htaken, ok_bind]
    simp only [h]
    rfl

end RevenueSplit

/-! ## Approvals -/

namespace RevenueApproval

variable {o : Origin} {p : RevenueApproval} {plan : Plan} {rate commission : Decimal}

/-- **Planning an approval leaves the range** where its amount is divided. -/
inductive PlanOverflows (o : Origin) (p : RevenueApproval) (seen : Ledgers) : Balance → Prop
  | split {txHash offering b} (hhash : o.requireTxHash = .ok txHash)
      (hamount : ¬ p.amount ≤ .zero) (hfound : seen.offerings.get? p.offeringId = some offering)
      (hstatus : offering.revenue.status ≠ .rejected)
      (hnew : txHash ∉ offering.revenue.approvedTransactions)
      (h : RevenueSplit.Overflows p.amount offering.revenue.platformRate offering.revenue.bdRate
        offering.bdId.isSome b) : PlanOverflows o p seen b

theorem PlanOverflows.plan_eq (h : p.PlanOverflows o l b) :
    p.plan o l = .error (.breach (.overflow b)) := by
  cases h with
  | split hhash hamount hfound hstatus hnew h =>
    rw [RevenueApproval.plan, hhash, ok_bind, require_bind_of hamount, hfound, orRefuse_some_bind,
      require_bind_of hstatus, require_bind_of hnew, h.of_eq]
    rfl

/-- **Crediting the shares leaves the range** with an open entry of the owner
or of the partner. -/
inductive Overflows (p : RevenueApproval) (plan : Plan) (rate commission : Decimal)
    (clock : Clock) (l : Ledgers) : Balance → Prop
  | owner {offerings e}
      (hmark : l.offerings.updateIfUnchanged (clock 1) plan.offering.id plan.offering.updatedAt
        (fun o =>
          { o with
            revenue := p.approved (clock 0 plan.offering.id) plan.txHash commission o.revenue }) =
          .ok offerings)
      (hpositive : Decimal.zero < plan.split.owner)
      (hopen : Ledgers.openEntry? { l with offerings := offerings }
        ⟨plan.offering.beneficiaryId, plan.offering.id, plan.offering.currency⟩ = some e)
      (h : e.balance.add? plan.split.owner = none) :
      Overflows p plan rate commission clock l (.entry e.id)
  | partner {offerings credited bdId e}
      (hmark : l.offerings.updateIfUnchanged (clock 1) plan.offering.id plan.offering.updatedAt
        (fun o =>
          { o with
            revenue := p.approved (clock 0 plan.offering.id) plan.txHash commission o.revenue }) =
          .ok offerings)
      (howner : creditShare (clock.later 2) plan.offering rate plan.offering.beneficiaryId
        plan.split.owner { l with offerings := offerings } = .ok credited)
      (hbd : plan.offering.bdId = some bdId) (hpositive : Decimal.zero < plan.split.bd)
      (hopen : credited.openEntry? ⟨bdId, plan.offering.id, plan.offering.currency⟩ = some e)
      (h : e.balance.add? plan.split.bd = none) :
      Overflows p plan rate commission clock l (.entry e.id)

/-- A share that takes an open entry out of the range is refused. -/
theorem creditShare_eq {offering : Offering} {beneficiary : String} {amount : Decimal}
    {e : RevenueEntry} (hpositive : Decimal.zero < amount)
    (hopen : l.openEntry? ⟨beneficiary, offering.id, offering.currency⟩ = some e)
    (h : e.balance.add? amount = none) :
    creditShare clock offering rate beneficiary amount l =
      .error (.breach (.overflow (.entry e.id))) := by
  rw [creditShare, if_pos hpositive, Ledgers.credit, require_bind_of hpositive]
  simp only [hopen, Ledgers.topUp, h]
  rfl

theorem Overflows.apply_eq (h : p.Overflows plan rate commission clock l b) :
    p.apply plan rate commission clock l = .error (.breach (.overflow b)) := by
  cases h with
  | owner hmark hpositive hopen h =>
    rw [apply, hmark, ok_bind, creditShare_eq hpositive hopen h]
    rfl
  | partner hmark howner hbd hpositive hopen h =>
    rw [apply, hmark, ok_bind, howner, ok_bind, creditPartner, hbd]
    simp only [creditShare_eq hpositive hopen h]
    rfl

end RevenueApproval

/-! ## Claims -/

namespace RevenueClaim

variable {p : RevenueClaim} {txHash beneficiary : String} {offerings : List String}
  {total : Decimal}

/-- **Closing entries leaves the range** with the sum of those of one
offering, or with the sum over the offerings. -/
inductive ClosingOverflows (p : RevenueClaim) (beneficiary : String) :
    Clock → List String → Decimal → Ledgers → Balance → Prop
  | held {clock offering offerings total l}
      (h : Ledgers.sumBalances
        (l.revenue.filter (Ledgers.isDue beneficiary offering (some p.currency))) = none) :
      ClosingOverflows p beneficiary clock (offering :: offerings) total l
        (.openRevenue beneficiary offering)
  | total {clock offering offerings total closed l l'}
      (hclosed : l.markWithdrawn (clock 0) beneficiary offering (some p.currency) =
        .ok (closed, l'))
      (h : total.add? closed = none) :
      ClosingOverflows p beneficiary clock (offering :: offerings) total l (.withdrawal p.requestId)
  | later {clock offering offerings total total' closed l l' b}
      (hclosed : l.markWithdrawn (clock 0) beneficiary offering (some p.currency) =
        .ok (closed, l'))
      (htotal : total.add? closed = some total')
      (h : ClosingOverflows p beneficiary (clock.later 1) offerings total' l' b) :
      ClosingOverflows p beneficiary clock (offering :: offerings) total l b

theorem ClosingOverflows.closeAll_eq
    (h : p.ClosingOverflows beneficiary clock offerings total l b) :
    p.closeAll clock beneficiary offerings total l = .error (.breach (.overflow b)) := by
  induction h with
  | held h =>
    rw [closeAll, Ledgers.markWithdrawn]
    simp only [h]
    rfl
  | total hclosed h =>
    rw [closeAll, hclosed, ok_bind]
    simp only [h]
    rfl
  | later hclosed htotal _ ih =>
    rw [closeAll, hclosed, ok_bind]
    simp only [htotal]
    exact ih

/-- **A claim leaves the range** as it closes the entries of its item. -/
inductive Overflows (p : RevenueClaim) (clock : Clock) (l : Ledgers) : Balance → Prop
  | closing {request item b} (hclaimable : p.claimable l = .ok (request, item))
      (h : p.ClosingOverflows request.beneficiaryId clock item.offeringIds .zero l b) :
      Overflows p clock l b

theorem Overflows.apply_eq (h : p.Overflows clock l b) :
    p.apply txHash clock l = .error (.breach (.overflow b)) := by
  cases h with
  | closing hclaimable h =>
    rw [apply, hclaimable, ok_bind]
    simp only [h.closeAll_eq]
    rfl

end RevenueClaim

/-! ## Attempts -/

/-- The answers say where an attempt has come to. -/
theorem Attempt.Leads.unique {a x y : Attempt} {told : List Exchange} (hx : a.Leads told x)
    (hy : a.Leads told y) : x = y := by
  induction hx with
  | here => cases hy; rfl
  | hear _ ih => cases hy with | hear hy => exact ih hy

namespace Event

variable {verify : Bool} {seen : Ledgers} {e : Event} {told : List Exchange}

/-- **An attempt is refused** by one of its checks or by its commit: one that
saw some ledgers, was told some answers, and commits to the ledgers `l`. -/
def Refused (verify : Bool) (e : Event) (seen : Ledgers) (told : List Exchange) (clock : Clock)
    (l : Ledgers) (r : Refusal) : Prop :=
  (e.attempt verify seen).Leads told (.refuse r) ∨
    ∃ c, (e.attempt verify seen).Leads told (.commit c) ∧ c clock l = .error r

/-- **An attempt leaves the decimal range** with a balance: in the ledgers it
saw, or in those it commits to. -/
inductive Overflows (verify : Bool) (seen : Ledgers) (clock : Clock) (l : Ledgers) :
    Event → List Exchange → Balance → Prop
  | deposit {o p txHash told b}
      (hlead : (attempt verify ⟨o, .deposit p⟩ seen).Leads told (.commit (p.settle txHash)))
      (h : p.Overflows txHash l b) : Overflows verify seen clock l ⟨o, .deposit p⟩ told b
  | stake {o p txHash b} (hp : p.sensible .stake o = .ok txHash)
      (h : p.Overflows .stake txHash l b) : Overflows verify seen clock l ⟨o, .stake p⟩ [] b
  | unstake {o p txHash b} (hp : p.sensible .unstake o = .ok txHash)
      (h : p.Overflows .unstake txHash l b) : Overflows verify seen clock l ⟨o, .unstake p⟩ [] b
  | plan {o p b} (h : p.PlanOverflows o seen b) :
      Overflows verify seen clock l ⟨o, .approveRevenue p⟩ [] b
  | commission {o p plan rate} (hplan : p.plan o seen = .ok plan)
      (h : plan.offering.revenue.platformCommission.add? plan.split.platform = none) :
      Overflows verify seen clock l ⟨o, .approveRevenue p⟩
        [⟨.rate o.chain plan.offering.currency, .ok rate⟩] (.platformCommission plan.offering.id)
  | credit {o p plan rate commission b} (hplan : p.plan o seen = .ok plan)
      (hc : RevenueApproval.commission plan = .ok commission)
      (h : p.Overflows plan rate commission clock l b) :
      Overflows verify seen clock l ⟨o, .approveRevenue p⟩
        [⟨.rate o.chain plan.offering.currency, .ok rate⟩] b
  | claim {o p txHash told b}
      (hlead : (attempt verify ⟨o, .claimRevenue p⟩ seen).Leads told (.commit (p.apply txHash)))
      (h : p.Overflows clock l b) : Overflows verify seen clock l ⟨o, .claimRevenue p⟩ told b

open Attempt in
/-- **A balance that leaves the range refuses the attempt**, as a breach. -/
theorem Overflows.refused (h : e.Overflows verify seen clock l told b) :
    e.Refused verify seen told clock l (.breach (.overflow b)) := by
  cases h with
  | deposit hlead h => exact .inr ⟨_, hlead, h.settle_eq⟩
  | @stake o p txHash b hp h =>
    refine .inr ⟨p.apply .stake txHash, ?_, h.apply_eq⟩
    show (p.attempt .stake o).Leads [] _
    rw [StakeChange.attempt, hp]
    exact .here
  | @unstake o p txHash b hp h =>
    refine .inr ⟨p.apply .unstake txHash, ?_, h.apply_eq⟩
    show (p.attempt .unstake o).Leads [] _
    rw [StakeChange.attempt, hp]
    exact .here
  | @plan o p b h =>
    refine .inl ?_
    show (p.attempt o seen).Leads [] _
    rw [RevenueApproval.attempt, h.plan_eq]
    exact .here
  | @commission o p plan rate hplan h =>
    refine .inl ?_
    show (p.attempt o seen).Leads _ _
    rw [RevenueApproval.attempt, hplan]
    refine .hear ?_
    simp only [check, RevenueApproval.commission, h]
    exact .here
  | @credit o p plan rate commission b hplan hc h =>
    refine .inr ⟨p.apply plan rate commission, ?_, h.apply_eq⟩
    show (p.attempt o seen).Leads _ _
    rw [RevenueApproval.attempt, hplan]
    refine .hear ?_
    simp only [check, hc]
    exact .here
  | claim hlead h => exact .inr ⟨_, hlead, h.apply_eq⟩

end Event

end ChainLedger
