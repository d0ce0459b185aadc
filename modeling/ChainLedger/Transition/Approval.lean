import ChainLedger.Transition.Attempt

/-!
# Approvals of revenue

Revenue of an offering is approved by a transaction at a time. The amount is
divided by the rates of the offering as it is seen, the exchange rate is
asked for, and the division is written only if the offering is still the one
that was seen; otherwise the attempt is made again.
-/

namespace ChainLedger.RevenueApproval

/-- What an approval computes from the offering as it is seen. -/
structure Plan where
  txHash : String
  offering : Offering
  split : RevenueSplit

/-- The division of an approval that may be applied. -/
def plan (o : Origin) (p : RevenueApproval) (seen : Ledgers) : Except Refusal Plan := do
  let txHash ← o.requireTxHash
  require (¬ p.amount ≤ .zero) (.malformed (.approvalAmount txHash p.amount))
  let offering ← orRefuse (missing .offering p.offeringId) (seen.offerings.get? p.offeringId)
  let revenue := offering.revenue
  require (revenue.status ≠ .rejected) (.skip (.revenueRejected offering.id))
  require (txHash ∉ revenue.approvedTransactions) (.skip (.approvalApplied txHash))
  let split ← RevenueSplit.of p.amount revenue.platformRate revenue.bdRate offering.bdId.isSome
  return ⟨txHash, offering, split⟩

/-- The commission of the platform with its share of the approval. -/
def commission (plan : Plan) : Except Refusal Decimal :=
  orOverflow (.platformCommission plan.offering.id)
    (plan.offering.revenue.platformCommission.add? plan.split.platform)

/-- The revenue of an offering after an approval. The first approval names
who finalized it, and when. -/
def approved (p : RevenueApproval) (now : Instant) (txHash : String) (commission : Decimal)
    (r : OfferingRevenue) : OfferingRevenue :=
  { r with
    status := .approved
    approvedTransactions := r.approvedTransactions ++ [txHash]
    platformCommission := commission
    finalizedBy := if r.finalizedBy.isNone then some p.sender else r.finalizedBy
    finalizedOn := if r.finalizedBy.isNone then some now else r.finalizedOn }

/-- Credits a share, if there is any. -/
def creditShare (clock : Clock) (offering : Offering) (rate : Decimal) (beneficiary : String)
    (amount : Decimal) (l : Ledgers) : Except Refusal Ledgers :=
  if Decimal.zero < amount then
    (l.credit clock beneficiary offering.id amount ⟨offering.currency, rate⟩).map (·.2)
  else .ok l

/-- Credits the share of the partner, if the offering has one. -/
def creditPartner (clock : Clock) (plan : Plan) (rate : Decimal) (l : Ledgers) :
    Except Refusal Ledgers :=
  match plan.offering.bdId with
  | some bdId => creditShare clock plan.offering rate bdId plan.split.bd l
  | none => .ok l

/-- What is told of an approval. -/
def effects (plan : Plan) : List Effect :=
  let o := plan.offering
  [.email "revenue-approved" o.beneficiaryId (.obj
    [("offeringId", .str o.id), ("amount", .str plan.split.owner.toText),
      ("currency", .str o.currency.lower)]),
   .notifyFee o.id plan.split.platform o.currency]

/-- The approval is written and the shares are credited. The clock is read
once before the ledgers are opened. -/
def apply (p : RevenueApproval) (plan : Plan) (rate commission : Decimal) : Commit :=
  fun clock l => do
    let o := plan.offering
    let offerings ← l.offerings.updateIfUnchanged (clock 1) o.id o.updatedAt fun a =>
      { a with revenue := p.approved (clock 0 o.id) plan.txHash commission a.revenue }
    let l ← creditShare (clock.later 2) o rate o.beneficiaryId plan.split.owner
      { l with offerings := offerings }
    let l ← creditPartner (clock.later 4) plan rate l
    return (l, effects plan)

/-- **Revenue of an offering was approved.** -/
def attempt (o : Origin) (p : RevenueApproval) (seen : Ledgers) : Attempt :=
  .check (p.plan o seen) fun plan =>
  .ask (.rate o.chain plan.offering.currency) fun rate =>
  .check rate fun rate =>
  .check (commission plan) fun commission =>
  .commit (p.apply plan rate commission)

end ChainLedger.RevenueApproval
