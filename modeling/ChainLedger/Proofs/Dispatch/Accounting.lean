import ChainLedger.Proofs.Dispatch.Sequence
import ChainLedger.Proofs.Event.Normal
import ChainLedger.Proofs.Transition.Earnings
import ChainLedger.Proofs.Transition.Frame
import Mathlib.Data.List.DropRight

/-!
# Revenue accounting

The approvals and the claims that were applied, in the order of their
commits, account for all of the earnings (`Accounted`). Each approval enters
its hash and the share of the platform in its offering once. The open balance
of an account is what accrued to it since the last claim that closed it, and
an entry that was closed keeps what had accrued by then.
-/

namespace ChainLedger

/-! ## Deeds -/

/-- An approval: of which offering, under which hash, how it is divided, and
whose the shares are. -/
structure Approval where
  offeringId : String
  txHash : String
  split : RevenueSplit
  owner : Account
  partner : Option Account

/-- What happens to earnings. -/
inductive Deed
  /-- Revenue was approved. -/
  | approval (a : Approval)
  /-- Accounts were closed. -/
  | claim (accounts : List Account)

/-- The approval that an event makes, by the terms of its offering. -/
def RevenueApproval.deed? (l : Ledgers) (o : Origin) (p : RevenueApproval) : Option Deed := do
  let txHash ← o.txHash
  let offering ← l.offerings.get? p.offeringId
  let revenue := offering.revenue
  let split ←
    (RevenueSplit.of p.amount revenue.platformRate revenue.bdRate offering.bdId.isSome).toOption
  return .approval ⟨p.offeringId, txHash, split,
    ⟨offering.beneficiaryId, p.offeringId, offering.currency⟩,
    offering.bdId.map fun bdId => ⟨bdId, p.offeringId, offering.currency⟩⟩

/-- The accounts that a claim closes: those that the first item of its
currency covers. -/
def RevenueClaim.deed? (l : Ledgers) (p : RevenueClaim) : Option Deed := do
  let request ← l.withdrawals.get? p.requestId
  let item ← request.items.find? (·.currency = p.currency)
  return .claim (item.offeringIds.map fun k => ⟨request.beneficiaryId, k, p.currency⟩)

/-- The deed of an event, by the terms of offerings and requests. -/
def InboundEvent.deed? (l : Ledgers) (raw : InboundEvent) : Option Deed :=
  match raw.normalize with
  | .ok (some ⟨o, .approveRevenue p⟩) => p.deed? l o
  | .ok (some ⟨_, .claimRevenue p⟩) => p.deed? l
  | _ => none

namespace Deed

/-- The approval of an offering. -/
def approvalOf? (offering : String) : Deed → Option Approval
  | .approval a => if a.offeringId = offering then some a else none
  | .claim _ => none

/-- What a deed gives to an account: the share of the owner, then that of the
partner, as far as they are its own and positive. -/
def amounts (a : Account) : Deed → List Decimal
  | .approval d => shareOf d.owner d.split.owner a ++ partnerShareOf d.partner d.split.bd a
  | .claim _ => []

/-- The deed closes an account. -/
def closes (a : Account) : Deed → Bool
  | .approval _ => false
  | .claim accounts => a ∈ accounts

end Deed

/-- The approvals of an offering, in order. -/
def approvalsOf (offering : String) (ds : List Deed) : List Approval :=
  ds.filterMap (·.approvalOf? offering)

/-- **What accrued to an account** since the last deed that closed it, in
order. -/
def accrued (a : Account) (ds : List Deed) : List Decimal :=
  (ds.rtakeWhile fun d => !d.closes a).flatMap (·.amounts a)

/-- What it accrued on: the balance at the start, until it is closed. -/
def opening (l₀ : Ledgers) (a : Account) (ds : List Deed) : Option Decimal :=
  if ds.any (·.closes a) then none else l₀.openBalance? a

/-- **Ledgers after some deeds**, all decimal operations done in order. -/
structure Accounted (l₀ : Ledgers) (ds : List Deed) (l : Ledgers) : Prop where
  /-- Offerings: the approvals that were applied, each once, and the
  commission of the platform. -/
  offerings : ∀ k, Option.Rel (fun o₀ o =>
    o.revenue.approvedTransactions =
        o₀.revenue.approvedTransactions ++ (approvalsOf k ds).map (·.txHash) ∧
      o.revenue.approvedTransactions.Nodup ∧
      ((approvalsOf k ds).map (·.split.platform)).foldlM Decimal.add?
        o₀.revenue.platformCommission = some o.revenue.platformCommission)
    (l₀.offerings.get? k) (l.offerings.get? k)
  /-- At most one entry of an account is open. -/
  single : l.SingleOpen
  /-- Accounts: the open balance. -/
  balance : ∀ a, Accrues (opening l₀ a ds) (accrued a ds) (l.openBalance? a)
  /-- Closed entries: they were so before, or keep what had accrued when they
  were closed. -/
  closed : ∀ k e, l.revenue.get? k = some e → e.isWithdrawn = true →
    l₀.revenue.get? k = some e ∨
      ∃ ds₁ d ds₂, ds = ds₁ ++ d :: ds₂ ∧ d.closes e.account = true ∧
        Accrues (opening l₀ e.account ds₁) (accrued e.account ds₁) (some e.balance)

/-! ## One more deed -/

section Snoc

variable {l₀ : Ledgers} {a : Account} {ds : List Deed} {d : Deed}

theorem approvalsOf_snoc (k : String) :
    approvalsOf k (ds ++ [d]) = approvalsOf k ds ++ (d.approvalOf? k).toList := by
  cases h : d.approvalOf? k <;> simp [approvalsOf, h]

theorem accrued_snoc (h : d.closes a = false) :
    accrued a (ds ++ [d]) = accrued a ds ++ d.amounts a := by
  rw [accrued, List.rtakeWhile_concat_pos _ _ _ (by simp [h])]
  simp [accrued]

theorem opening_snoc (h : d.closes a = false) : opening l₀ a (ds ++ [d]) = opening l₀ a ds := by
  simp [opening, h]

theorem accrued_snoc_of_closes (h : d.closes a = true) : accrued a (ds ++ [d]) = [] := by
  rw [accrued, List.rtakeWhile_concat_neg _ _ _ (by simp [h])]
  rfl

theorem opening_snoc_of_closes (h : d.closes a = true) : opening l₀ a (ds ++ [d]) = none := by
  simp [opening, h]

end Snoc

/-! ## Terms that stay -/

section Terms

variable {l₀ l : Ledgers} {o : Origin}

/-- An offering has the terms that it started with. -/
theorem Ledgers.Follows.terms_eq (hf : l₀.Follows l) {k : String} {offering : Offering}
    (h : l.offerings.get? k = some offering) :
    ∃ o₀, l₀.offerings.get? k = some o₀ ∧ offering.terms = o₀.terms := by
  obtain ⟨o₀, ho₀, hlater⟩ := hf.offerings.before h
  refine ⟨o₀, ho₀, ?_⟩
  rcases hlater with rfl | ⟨-, hlater⟩
  · rfl
  · exact hlater.terms

/-- The deed of an approval that is applied is the one by the terms at the
start. -/
theorem RevenueApproval.deed?_of_plan {p : RevenueApproval} {plan : Plan} (hf : l₀.Follows l)
    (hl : l.Keyed) (h : p.plan o l = .ok plan) :
    p.deed? l₀ o = some (.approval ⟨p.offeringId, plan.txHash, plan.split,
      ⟨plan.offering.beneficiaryId, plan.offering.id, plan.offering.currency⟩,
      partnerAccount plan.offering⟩) := by
  obtain ⟨hhash, -, hget, -, -, hsplit⟩ := of_plan h
  obtain ⟨hid, -⟩ := Plan.offering_eq hl h
  obtain ⟨o₀, ho₀, hterms⟩ := hf.terms_eq hget
  -- All that an approval reads of its offering, beside what was approved, are terms.
  have hplatform : plan.offering.revenue.platformRate = o₀.revenue.platformRate :=
    congrArg (·.revenue.platformRate) hterms
  have hbd : plan.offering.revenue.bdRate = o₀.revenue.bdRate :=
    congrArg (·.revenue.bdRate) hterms
  have hpartner : plan.offering.bdId = o₀.bdId := congrArg (·.bdId) hterms
  have howner : plan.offering.beneficiaryId = o₀.beneficiaryId := congrArg (·.beneficiaryId) hterms
  have hcurrency : plan.offering.currency = o₀.currency := congrArg (·.currency) hterms
  rw [hplatform, hbd, hpartner] at hsplit
  simp only [deed?, hhash, ho₀, hsplit, Except.toOption, partnerAccount, hid, hpartner, howner,
    hcurrency, Option.bind_eq_bind, Option.bind_some, Option.pure_def]

/-- Items of a currency cover the same offerings all along. -/
theorem WithdrawalItem.find?_forall₂ {is js : List WithdrawalItem} {c : Address}
    (h : List.Forall₂ Becomes is js) :
    (is.find? (·.currency = c)).map (·.offeringIds) =
      (js.find? (·.currency = c)).map (·.offeringIds) := by
  induction h with
  | nil => rfl
  | @cons i j is js hij _ ih =>
    by_cases hc : i.currency = c
    · have hc' : j.currency = c := hij.currency.trans hc
      simp [hc, hc', hij.offeringIds]
    · have hc' : ¬ j.currency = c := fun hj => hc (hij.currency.symm.trans hj)
      simpa [hc, hc'] using ih

/-- The deed of a claim is the one by the request at the start. -/
theorem RevenueClaim.deed?_of_request {p : RevenueClaim} {request : WithdrawalRequest}
    {item : WithdrawalItem} (hf : l₀.Follows l)
    (hrequest : l.withdrawals.get? p.requestId = some request)
    (hitem : request.items.find? (·.currency = p.currency) = some item) :
    p.deed? l₀ = some (.claim
      (item.offeringIds.map fun k => ⟨request.beneficiaryId, k, p.currency⟩)) := by
  obtain ⟨r₀, hr₀, hlater⟩ := hf.withdrawals.before hrequest
  have hsame : r₀.beneficiaryId = request.beneficiaryId ∧
      (r₀.items.find? (·.currency = p.currency)).map (·.offeringIds) = some item.offeringIds := by
    rcases hlater with rfl | ⟨-, hlater⟩
    · exact ⟨rfl, congrArg (Option.map (·.offeringIds)) hitem⟩
    · refine ⟨hlater.beneficiaryId.symm, ?_⟩
      rw [WithdrawalItem.find?_forall₂ hlater.items, hitem]
      rfl
  obtain ⟨hbeneficiary, hids⟩ := hsame
  obtain ⟨i₀, hi₀, hids⟩ := Option.map_eq_some_iff.mp hids
  simp only [deed?, hr₀, hi₀, hids, hbeneficiary, Option.bind_eq_bind, Option.bind_some,
    Option.pure_def]

end Terms

/-! ## The invariant -/

namespace Accounted

variable {l₀ l l' : Ledgers} {ds : List Deed} {clock : Clock} {fx : List Effect}

/-- **Nothing is done at the start.** -/
theorem start (hs : l₀.SingleOpen)
    (hnodup : ∀ k o, l₀.offerings.get? k = some o → o.revenue.approvedTransactions.Nodup) :
    Accounted l₀ [] l₀ where
  offerings k := by
    cases hget : l₀.offerings.get? k with
    | none => exact .none
    | some o => exact .some ⟨(List.append_nil _).symm, hnodup k o hget, rfl⟩
  single := hs
  balance a := .refl _
  closed _ _ hk _ := .inl hk

/-- **An event that leaves the earnings alone** is no deed. -/
theorem same (h : Accounted l₀ ds l) (hs : l.SameEarnings l') : Accounted l₀ ds l' where
  offerings k := by
    refine (h.offerings k).comp (hs.offerings.rel k) fun _ _ _ ho ho' => ?_
    rw [ho'.approved, ho'.commission]
    exact ho
  single := (Ledgers.Credits.of_revenue_eq h.single hs.revenue).single
  balance a := by
    unfold Ledgers.openBalance? Ledgers.openEntry?
    rw [hs.revenue]
    exact h.balance a
  closed := hs.revenue ▸ h.closed

/-- An entry that is closed already stays as it is. -/
theorem closed_snoc (h : Accounted l₀ ds l) (d : Deed) {k : String} {e : RevenueEntry}
    (hk : l.revenue.get? k = some e) (hclosed : e.isWithdrawn = true) :
    l₀.revenue.get? k = some e ∨
      ∃ ds₁ d' ds₂, ds ++ [d] = ds₁ ++ d' :: ds₂ ∧ d'.closes e.account = true ∧
        Accrues (opening l₀ e.account ds₁) (accrued e.account ds₁) (some e.balance) := by
  rcases h.closed k e hk hclosed with hk | ⟨ds₁, d', ds₂, rfl, hd, hbalance⟩
  · exact .inl hk
  · exact .inr ⟨ds₁, d', ds₂ ++ [d], by simp, hd, hbalance⟩

/-- **An approval** is one more deed. -/
theorem approve {o : Origin} {p : RevenueApproval} {plan : RevenueApproval.Plan}
    {rate commission : Decimal} (h : Accounted l₀ ds l) (hl : l.Keyed)
    (hplan : p.plan o l = .ok plan)
    (hcommission : RevenueApproval.commission plan = .ok commission)
    (happly : p.apply plan rate commission clock l = .ok (l', fx)) :
    Accounted l₀ (ds ++ [.approval ⟨p.offeringId, plan.txHash, plan.split,
      ⟨plan.offering.beneficiaryId, plan.offering.id, plan.offering.currency⟩,
      RevenueApproval.partnerAccount plan.offering⟩]) l' := by
  have hcredits := RevenueApproval.credits_apply hl h.single happly
  constructor
  case offerings =>
    intro k
    have hrel := RevenueApproval.offerings_apply hl hplan hcommission happly k
    refine (h.offerings k).comp hrel fun _ _ _ ho ho' => ?_
    obtain ⟨happroved, hnodup, hsum⟩ := ho
    rw [approvalsOf_snoc]
    by_cases hk : p.offeringId = k
    · rw [if_pos hk] at ho'
      obtain ⟨happroved', hnew, hsum'⟩ := ho'
      simp only [Deed.approvalOf?, if_pos hk, Option.toList_some, List.map_append,
        List.map_singleton]
      refine ⟨?_, ?_, ?_⟩
      · rw [happroved', happroved, List.append_assoc]
      · rw [happroved', ← List.concat_eq_append]
        exact hnodup.concat hnew
      · rw [List.foldlM_append, hsum]
        simpa using hsum'
    · rw [if_neg hk] at ho'
      simp only [Deed.approvalOf?, if_neg hk, Option.toList_none, List.append_nil]
      rw [ho'.1, ho'.2]
      exact ⟨happroved, hnodup, hsum⟩
  case single => exact hcredits.single
  case balance =>
    intro a
    rw [opening_snoc rfl, accrued_snoc rfl]
    exact (h.balance a).trans (hcredits.accrues a)
  case closed =>
    exact fun k e hk hclosed => h.closed_snoc _ (hcredits.closed k e hk hclosed) hclosed

/-- **A claim** is one more deed. -/
theorem claim {accounts : List Account} (h : Accounted l₀ ds l)
    (hoffer : l'.offerings = l.offerings) (hcloses : Ledgers.Closes accounts l l') :
    Accounted l₀ (ds ++ [.claim accounts]) l' := by
  constructor
  case offerings =>
    intro k
    rw [hoffer]
    simpa only [approvalsOf_snoc, Deed.approvalOf?, Option.toList_none, List.append_nil] using
      h.offerings k
  case single => exact hcloses.single
  case balance =>
    intro a
    rw [hcloses.balance]
    by_cases ha : a ∈ accounts
    · have hd : (Deed.claim accounts).closes a = true := by simpa [Deed.closes] using ha
      rw [if_pos ha, opening_snoc_of_closes hd, accrued_snoc_of_closes hd]
      exact .refl none
    · have hd : (Deed.claim accounts).closes a = false := by simpa [Deed.closes] using ha
      rw [if_neg ha, opening_snoc hd, accrued_snoc hd]
      simpa [Deed.amounts] using h.balance a
  case closed =>
    intro k e hk hclosed
    rcases hcloses.closed k e hk hclosed with hk | ⟨hin, hbalance⟩
    · exact h.closed_snoc _ hk hclosed
    -- An entry that this claim closes keeps the balance that it had while it was open.
    · refine .inr ⟨ds, .claim accounts, [], rfl, by simpa [Deed.closes] using hin, ?_⟩
      rw [← hbalance]
      exact h.balance e.account

end Accounted

/-! ## Runs -/

/-- The approvals and the claims among some events. -/
def earnings {ι : Type} (raws : ι → InboundEvent) (is : List ι) : List InboundEvent :=
  (is.map raws).filter fun raw =>
    raw.eventName = "ApproveIAORevenue" ∨ raw.eventName = "ClaimRevenue"

theorem earnings_snoc {ι : Type} {raws : ι → InboundEvent} {is : List ι} {i : ι} {e : Event}
    (h : (raws i).normalize = .ok (some e)) :
    earnings raws (is ++ [i]) =
      earnings raws is ++ if e.payload.earns then [raws i] else [] := by
  have hname := InboundEvent.event_of_normalize h
  have hearns : (e.payload.event = "ApproveIAORevenue" ∨ e.payload.event = "ClaimRevenue") ↔
      e.payload.earns = true := by
    cases e.payload <;> simp [Payload.event, Payload.earns]
  rw [hname] at hearns
  simp only [earnings, List.map_append, List.map_cons, List.map_nil, List.filter_append,
    List.filter_cons, List.filter_nil, decide_eq_true_eq, hearns]

/-- **A log accounts for its approvals and claims**, every one of them. -/
theorem Yields.accounted {ι : Type} {verify : Bool} {raws : ι → InboundEvent} {l₀ l : Ledgers}
    {log : List (Commitment ι)} (hl : l₀.Keyed) (hs : l₀.SingleOpen)
    (hnodup : ∀ k o, l₀.offerings.get? k = some o → o.revenue.approvedTransactions.Nodup)
    (h : Yields verify raws l₀ log l) :
    ∃ ds, (earnings raws (log.map (·.of))).map (·.deed? l₀) = ds.map some ∧
      Accounted l₀ ds l := by
  induction h with
  | nil => exact ⟨[], rfl, .start hs hnodup⟩
  | @snoc log l x e c l' fx hlog hraw hlead hc ih =>
    obtain ⟨ds, hds, haccounted⟩ := ih
    have hfollows := hlog.follows hl
    have hkeyed := hfollows.keyed hl
    have hcommits := Event.commits_of_leads hlead
    rw [List.map_append, List.map_singleton, earnings_snoc hraw]
    cases hkind : e.payload.earns with
    | true =>
      obtain ⟨o, p⟩ := e
      cases hcommits with
      | @approveRevenue p plan rate commission hplan hcommission =>
        have hraw' : (raws x.of).deed? l₀ = p.deed? l₀ o := by
          simp only [InboundEvent.deed?, hraw]
        have hdeed := RevenueApproval.deed?_of_plan hfollows hkeyed hplan
        refine ⟨ds ++ [_], ?_, haccounted.approve hkeyed hplan hcommission hc⟩
        simp [hds, hraw', hdeed]
      | @claimRevenue p txHash _ =>
        obtain ⟨request, item, hrequest, hitem, hcloses⟩ :=
          RevenueClaim.closes_apply haccounted.single hc
        have hraw' : (raws x.of).deed? l₀ = p.deed? l₀ := by
          simp only [InboundEvent.deed?, hraw]
        have hdeed := RevenueClaim.deed?_of_request hfollows hrequest hitem
        have hoffer := RevenueClaim.offerings_apply hc
        refine ⟨ds ++ [_], ?_, haccounted.claim hoffer hcloses⟩
        simp [hds, hraw', hdeed]
      | _ => cases hkind
    | false =>
      have hchange : e.Changes x.clock l l' fx := ⟨c, hcommits, hc⟩
      exact ⟨ds, by simpa using hds, haccounted.same (hchange.sameEarnings hkind)⟩

namespace Traffic

variable {ι : Type} [DecidableEq ι] {settings : DispatchSettings} {raws : ι → InboundEvent}
  {l₀ : Ledgers} {t : Traffic ι}

/-- **No credit is lost or duplicated** in any run. The approvals and the
claims that were applied all have a deed, and these account for the earnings
of the ledgers. -/
theorem accounted_of_run (hl : l₀.Keyed) (hs : l₀.SingleOpen)
    (hnodup : ∀ k o, l₀.offerings.get? k = some o → o.revenue.approvedTransactions.Nodup)
    (h : Run settings raws l₀ t) :
    ∃ ds, (earnings raws t.applied).map (·.deed? l₀) = ds.map some ∧
      Accounted l₀ ds t.ledgers :=
  (h.sound hl).yields.accounted hl hs hnodup

/-- An approval of a hundred, and the claim of what the owner gets of it. -/
def approveAndClaim : Bool → InboundEvent
  | true => ⟨"approval", "ApproveIAORevenue", 1, default, some "0x01", .obj
      [("iaoEventId", .str "offering"), ("amount", .str "100"),
        ("sender", .str "0x0000000000000000000000000000000000000001")]⟩
  | false => ⟨"claim", "ClaimRevenue", 1, default, some "0x02", .obj
      [("requestId", .str "request"),
        ("currencyContract", .str "0x0000000000000000000000000000000000000000")]⟩

theorem accounted_approveAndClaim :
    ∃ t, Run ⟨false, 1⟩ approveAndClaim sampleLedgers t ∧ t.applied = [true, false] ∧
      ∃ ds, (earnings approveAndClaim t.applied).map (·.deed? sampleLedgers) = ds.map some ∧
        Accounted sampleLedgers ds t.ledgers := by
  obtain ⟨t, hrun, happlied⟩ :=
    @Host.Quiet.run_of_reports _ _ _ _ approveAndClaim ⟨false, 1⟩
      ⟨sampleLedgers, [⟨.rate 1 default, Except.ok Decimal.hundred⟩], []⟩
      (Rerun.quiet_host fun _ => true) [true, false] (by decide) (fun _ => true)
      (by decide +kernel)
  have hs : sampleLedgers.SingleOpen := by
    intro k _ e _ hk
    rw [show sampleLedgers.revenue.get? k = none from rfl] at hk
    cases hk
  have hnodup : ∀ k o, sampleLedgers.offerings.get? k = some o →
      o.revenue.approvedTransactions.Nodup := by
    intro k o hk
    have ho : o ∈ [sampleOffering] := Collection.mem_toList.mpr ⟨k, hk⟩
    rw [List.mem_singleton.mp ho]
    exact List.nodup_nil
  exact ⟨t, hrun, happlied, accounted_of_run keyed_sampleLedgers hs hnodup hrun⟩

end Traffic

end ChainLedger
