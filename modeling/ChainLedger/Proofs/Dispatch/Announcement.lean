import ChainLedger.Proofs.Dispatch.Isolation
import ChainLedger.Proofs.Dispatch.Settlement
import ChainLedger.Proofs.Transition.Announcement

/-!
# Effects are fired once for each cause

The events that are applied, in the order of their commits, bring effects with
them (`Chronicle`). Over any such history the news of a milestone are told once
if it was reached and never otherwise; deposits are told once for each purchase
that was added; and of the approvals that entered their hashes in an offering
one mail each is sent and one fee each is told, with the share of the platform
(`Announced`). So it is of the effects of every run, and of those that a host
fires while it dispatches (`announced_once`).
-/

namespace ChainLedger

open Effect

/-! ## Histories with their effects -/

/-- **Events that are applied one after the other**, and all of their effects
in order. -/
inductive Chronicle (l₀ : Ledgers) : List InboundEvent → List Effect → Ledgers → Prop
  | nil : Chronicle l₀ [] [] l₀
  | snoc {raws fxs l raw e clock l' fx} (h : Chronicle l₀ raws fxs l)
      (hraw : raw.normalize = .ok (some e)) (hchange : e.Changes clock l l' fx) :
      Chronicle l₀ (raws ++ [raw]) (fxs ++ fx) l'

/-- A history leaves later ledgers. -/
theorem Chronicle.follows {l₀ l : Ledgers} {raws : List InboundEvent} {fxs : List Effect}
    (hl : l₀.Keyed) (h : Chronicle l₀ raws fxs l) : l₀.Follows l := by
  induction h with
  | nil => exact .refl l₀
  | snoc _ _ hchange ih => exact ih.trans (hchange.follows (ih.keyed hl))

namespace Approval

/-- The mail to the owner. -/
def mail (a : Approval) : Effect :=
  .email "revenue-approved" a.owner.beneficiaryId (.obj
    [("offeringId", .str a.offeringId), ("amount", .str a.split.owner.toText),
      ("currency", .str a.owner.currency.lower)])

/-- The notice of the fee of the platform, which is its share. -/
def fee (a : Approval) : Effect := .notifyFee a.offeringId a.split.platform a.owner.currency

end Approval

/-- The settlements among some events. -/
def settlements (raws : List InboundEvent) : List Settlement := raws.filterMap (·.settlement?)

/-- The approvals of an offering among some events, by the terms that the
offering starts with. -/
def approvals (l₀ : Ledgers) (offering : String) (raws : List InboundEvent) : List Approval :=
  approvalsOf offering (raws.filterMap (·.deed? l₀))

/-- **What is told of some events** that were applied, and what they did. -/
structure Announced (l₀ : Ledgers) (raws : List InboundEvent) (fxs : List Effect) (l : Ledgers) :
    Prop where
  /-- The news of a milestone are told once if it was reached, and else not. -/
  news : ∀ m : Milestone, ∀ q ∈ m.news, Once q fxs (m.Reached l₀) (m.Reached l)
  /-- No rejection is told of an offering with an approval that was applied. -/
  decided : ∀ raw ∈ raws, ∀ o p, raw.normalize = .ok (some ⟨o, .approveRevenue p⟩) →
    fxs.countP (mails "revenue-rejected" "offeringId" p.offeringId) = 0
  /-- The settlements are the purchases that were added. -/
  settled : Settled l₀ (settlements raws) l
  /-- Each of them is told once, in order. -/
  deposits : List.Forall₂ (fun d fx => ∃ rest, fx = d.deposit.notice rest) (settlements raws)
    (fxs.filter tellsDeposit)
  /-- The approvals of an offering are the hashes that were added to it. -/
  approved : ∀ k, Option.Rel (fun o₀ o =>
    o.revenue.approvedTransactions =
        o₀.revenue.approvedTransactions ++ (approvals l₀ k raws).map (·.txHash) ∧
      ((approvals l₀ k raws).map (·.txHash)).Nodup ∧
      ∀ a ∈ approvals l₀ k raws, a.txHash ∉ o₀.revenue.approvedTransactions)
    (l₀.offerings.get? k) (l.offerings.get? k)
  /-- One mail is sent of each of them, in order. -/
  mailed : ∀ k, fxs.filter (mails "revenue-approved" "offeringId" k) =
    (approvals l₀ k raws).map (·.mail)
  /-- One fee is told of each of them, in order. -/
  charged : ∀ k, fxs.filter (notifiesFee k) = (approvals l₀ k raws).map (·.fee)

/-! ## One more event -/

section Snoc

variable {l₀ l l' : Ledgers} {raw : InboundEvent} {raws : List InboundEvent} {e : Event} {o : Origin}
  {clock : Clock} {fx : List Effect} {k : String}

theorem settlements_append {raws' : List InboundEvent} :
    settlements (raws ++ raws') = settlements raws ++ settlements raws' :=
  List.filterMap_append

theorem approvals_append {raws' : List InboundEvent} :
    approvals l₀ k (raws ++ raws') = approvals l₀ k raws ++ approvals l₀ k raws' := by
  rw [approvals, List.filterMap_append, approvalsOf, List.filterMap_append]
  rfl

theorem settlements_of_deposit {p : FundDeposit} {txHash : String}
    (hraw : raw.normalize = .ok (some ⟨o, .deposit p⟩)) (hhash : o.txHash = some txHash) :
    settlements [raw] = [⟨txHash, p⟩] :=
  List.filterMap_cons_some (InboundEvent.settlement?_of_normalize hraw hhash)

theorem approvals_singleton :
    approvals l₀ k [raw] = ((raw.deed? l₀).bind (·.approvalOf? k)).toList := by
  cases h : raw.deed? l₀ with
  | none => simp [approvals, approvalsOf, h]
  | some d => cases hd : d.approvalOf? k <;> simp [approvals, approvalsOf, h, hd]

/-- Only a deposit settles anything. -/
theorem settlements_eq_nil (hraw : raw.normalize = .ok (some e))
    (he : ∀ p, e.payload ≠ .deposit p) : settlements [raw] = [] := by
  refine List.filterMap_cons_none ?_
  unfold InboundEvent.settlement?
  split
  · next o p heq =>
    rw [hraw] at heq
    cases heq
    exact absurd rfl (he p)
  · rfl

/-- Only an approval approves anything. -/
theorem approvals_eq_nil (hraw : raw.normalize = .ok (some e))
    (he : ∀ p, e.payload ≠ .approveRevenue p) : approvals l₀ k [raw] = [] := by
  rw [approvals_singleton]
  unfold InboundEvent.deed?
  split
  · next o p heq =>
    rw [hraw] at heq
    cases heq
    exact absurd rfl (he p)
  · next p _ =>
    cases hdeed : p.deed? l₀ with
    | none => rfl
    | some d =>
      simp only [RevenueClaim.deed?, Option.bind_eq_bind, Option.bind_eq_some_iff,
        Option.pure_def, Option.some.injEq] at hdeed
      obtain ⟨-, -, -, -, rfl⟩ := hdeed
      rfl
  · rfl

/-- What a plan that is carried out approves. -/
def RevenueApproval.Plan.approval (p : RevenueApproval) (plan : RevenueApproval.Plan) : Approval :=
  ⟨p.offeringId, plan.txHash, plan.split,
    ⟨plan.offering.beneficiaryId, plan.offering.id, plan.offering.currency⟩,
    RevenueApproval.partnerAccount plan.offering⟩

/-- An approval that is applied approves what it plans. -/
theorem approvals_of_plan {p : RevenueApproval} {plan : RevenueApproval.Plan}
    (hf : l₀.Follows l) (hl : l.Keyed) (hraw : raw.normalize = .ok (some ⟨o, .approveRevenue p⟩))
    (hplan : p.plan o l = .ok plan) :
    approvals l₀ k [raw] = if p.offeringId = k then [plan.approval p] else [] := by
  have happroval : (raw.deed? l₀).bind (·.approvalOf? k) =
      if p.offeringId = k then some (plan.approval p) else none := by
    simp only [InboundEvent.deed?, hraw, RevenueApproval.deed?_of_plan hf hl hplan,
      Option.bind_some, Deed.approvalOf?, RevenueApproval.Plan.approval]
  rw [approvals_singleton, happroval]
  split <;> rfl

/-- Only an approval enters a hash in an offering. -/
theorem Event.Changes.approved_eq (h : e.Changes clock l l' fx)
    (he : ∀ p, e.payload ≠ .approveRevenue p) (k : String) :
    Option.Rel (fun a b => b.revenue.approvedTransactions = a.revenue.approvedTransactions)
      (l.offerings.get? k) (l'.offerings.get? k) := by
  cases hkind : e.payload.earns with
  | false => exact ((h.sameEarnings hkind).offerings.rel k).imp fun _ _ _ hsame => hsame.approved
  | true =>
    obtain ⟨c, hc, h⟩ := h
    generalize e.payload = p at hc hkind he
    cases hc with
    | approveRevenue => exact absurd rfl (he _)
    | claimRevenue =>
      rw [RevenueClaim.offerings_apply h]
      exact .self fun _ _ => rfl
    | _ => cases hkind

/-- **Approvals that enter their hashes** in an offering, each of them once and
none that was there. -/
def Offering.Enters (approvals : List Approval) (o o' : Offering) : Prop :=
  o'.revenue.approvedTransactions =
      o.revenue.approvedTransactions ++ approvals.map (·.txHash) ∧
    (approvals.map (·.txHash)).Nodup ∧
    ∀ a ∈ approvals, a.txHash ∉ o.revenue.approvedTransactions

namespace Offering.Enters

variable {x x' x'' : Offering} {as bs : List Approval} {a : Approval}

theorem of_eq (h : x'.revenue.approvedTransactions = x.revenue.approvedTransactions) :
    Enters [] x x' :=
  ⟨h.trans (List.append_nil _).symm, List.nodup_nil, nofun⟩

theorem single
    (h : x'.revenue.approvedTransactions = x.revenue.approvedTransactions ++ [a.txHash])
    (hnew : a.txHash ∉ x.revenue.approvedTransactions) : Enters [a] x x' := by
  refine ⟨h, List.nodup_singleton _, fun b hb => ?_⟩
  rw [List.mem_singleton.mp hb]
  exact hnew

theorem trans (h : Enters as x x') (h' : Enters bs x' x'') : Enters (as ++ bs) x x'' := by
  obtain ⟨hbefore, hnodup, hfresh⟩ := h
  obtain ⟨hafter, hnodup', hfresh'⟩ := h'
  rw [hbefore] at hafter hfresh'
  refine ⟨?_, ?_, fun a ha => ?_⟩
  · rw [hafter, List.map_append, List.append_assoc]
  · rw [List.map_append]
    refine hnodup.append hnodup' ?_
    rintro hash hold hnew
    obtain ⟨b, hb, rfl⟩ := List.mem_map.mp hnew
    exact hfresh' b hb (List.mem_append_right _ hold)
  · rcases List.mem_append.mp ha with ha | ha
    · exact hfresh a ha
    · exact fun hmem => hfresh' a ha (List.mem_append_left _ hmem)

end Offering.Enters

/-- **What an applied event approves of an offering** is entered there, and is
told by a mail and a fee. -/
theorem Event.Changes.approves (h : e.Changes clock l l' fx) (hf : l₀.Follows l) (hl : l.Keyed)
    (hraw : raw.normalize = .ok (some e)) (k : String) :
    Option.Rel (Offering.Enters (approvals l₀ k [raw])) (l.offerings.get? k)
        (l'.offerings.get? k) ∧
      fx.filter (mails "revenue-approved" "offeringId" k) =
        (approvals l₀ k [raw]).map (·.mail) ∧
      fx.filter (notifiesFee k) = (approvals l₀ k [raw]).map (·.fee) := by
  by_cases he : ∃ p, e.payload = .approveRevenue p
  · obtain ⟨p, hp⟩ := he
    obtain ⟨o, _⟩ := e
    subst hp
    obtain ⟨c, hcommits, hc⟩ := h
    cases hcommits with
    | @approveRevenue _ plan rate commission hplan hcommission =>
      have hrel := RevenueApproval.offerings_apply hl hplan hcommission hc k
      obtain ⟨hid, -⟩ := RevenueApproval.Plan.offering_eq hl hplan
      obtain ⟨-, -, -, -, -, -, -, -, rfl⟩ := RevenueApproval.of_apply hc
      have heffects : RevenueApproval.effects plan =
          [(plan.approval p).mail, (plan.approval p).fee] := by
        simp [RevenueApproval.effects, RevenueApproval.Plan.approval, Approval.mail, Approval.fee,
          hid]
      rw [approvals_of_plan hf hl hraw hplan, heffects]
      by_cases hk : p.offeringId = k
      · simp only [if_pos hk] at hrel ⊢
        refine ⟨hrel.imp fun a b _ hab => .single hab.1 hab.2.1, ?_⟩
        simp [mails, notifiesFee, Approval.mail, Approval.fee, RevenueApproval.Plan.approval, hk,
          Json.getText?, Json.get?, Json.asText?]
      · simp only [if_neg hk] at hrel ⊢
        refine ⟨hrel.imp fun a b _ hab => .of_eq hab.1, ?_⟩
        simp [mails, notifiesFee, Approval.mail, Approval.fee, RevenueApproval.Plan.approval, hk,
          Json.getText?, Json.get?, Json.asText?]
  · have he : ∀ p, e.payload ≠ .approveRevenue p := fun p hp => he ⟨p, hp⟩
    obtain ⟨hmails, hfees⟩ := h.tells.filter_approved he k
    rw [approvals_eq_nil hraw he, hmails, hfees]
    exact ⟨(h.approved_eq he k).imp fun _ _ _ hab => .of_eq hab, rfl, rfl⟩

/-- **What an applied event settles** is one more purchase, and is told. -/
theorem Event.Changes.settles (h : e.Changes clock l l' fx) (hf : l₀.Follows l) (hl : l.Keyed)
    (hraw : raw.normalize = .ok (some e)) {ds : List Settlement} (hs : Settled l₀ ds l) :
    Settled l₀ (ds ++ settlements [raw]) l' ∧
      List.Forall₂ (fun d fx => ∃ rest, fx = d.deposit.notice rest) (settlements [raw])
        (fx.filter tellsDeposit) := by
  by_cases he : ∃ p, e.payload = .deposit p
  · obtain ⟨p, hp⟩ := he
    obtain ⟨o, _⟩ := e
    subst hp
    have hl' := (h.follows hl).keyed hl
    obtain ⟨c, hcommits, hc⟩ := h
    cases hcommits with
    | @deposit _ txHash hsettleable =>
      obtain ⟨hhash, -⟩ := FundDeposit.of_settleable hsettleable
      obtain ⟨s, -, rfl⟩ := FundDeposit.of_settle hc
      rw [settlements_of_deposit hraw hhash]
      exact ⟨hs.settle hf hl' hc, .cons ⟨_, rfl⟩ .nil⟩
  · have he : ∀ p, e.payload ≠ .deposit p := fun p hp => he ⟨p, hp⟩
    have hsells : e.payload.sells = false := by
      generalize e.payload = p at he
      cases p <;> first | rfl | exact absurd rfl (he _)
    rw [settlements_eq_nil hraw he, h.tells.filter_tellsDeposit he, List.append_nil]
    exact ⟨hs.same hf (h.sameSales hsells), .nil⟩

end Snoc

/-! ## What holds of every history -/

namespace Chronicle

variable {l₀ l : Ledgers} {raws : List InboundEvent} {fxs : List Effect}

/-- What has come about stays. -/
theorem reached (hl : l₀.Keyed) (h : Chronicle l₀ raws fxs l) {m : Milestone}
    (hm : m.Reached l₀) : m.Reached l := by
  induction h with
  | nil => exact hm
  | snoc h _ hchange ih => exact ih.edges (hchange.edges ((h.follows hl).keyed hl))

theorem news (hl : l₀.Keyed) (h : Chronicle l₀ raws fxs l) (m : Milestone) :
    ∀ q ∈ m.news, Once q fxs (m.Reached l₀) (m.Reached l) := by
  intro q hq
  induction h with
  | nil => exact ⟨fun hafter hbefore => absurd hafter hbefore, fun _ => rfl⟩
  | snoc h _ hchange ih =>
    have hkeyed := (h.follows hl).keyed hl
    exact ih.append (hchange.once hkeyed m q hq) (h.reached hl) fun hm =>
      hm.edges (hchange.edges hkeyed)

/-- Revenue of which an approval was applied is approved. -/
theorem holds_approved (hl : l₀.Keyed) (h : Chronicle l₀ raws fxs l) {raw : InboundEvent}
    (hmem : raw ∈ raws) {o : Origin} {p : RevenueApproval}
    (hp : raw.normalize = .ok (some ⟨o, .approveRevenue p⟩)) :
    l.offerings.Holds p.offeringId (·.revenue.status = .approved) := by
  induction h with
  | nil => cases hmem
  | @snoc raws fxs l raw' e clock l' fx h hraw hchange ih =>
    have hkeyed := (h.follows hl).keyed hl
    rcases List.mem_append.mp hmem with hmem | hmem
    · exact (hchange.follows hkeyed).finalized nofun (ih hmem)
    · rw [List.mem_singleton.mp hmem, hraw] at hp
      cases hp
      obtain ⟨w, hw, hbetween⟩ := hchange.writes hkeyed
      exact Payload.Writes.approved hw hbetween

theorem decided (hl : l₀.Keyed) (h : Chronicle l₀ raws fxs l) :
    ∀ raw ∈ raws, ∀ o p, raw.normalize = .ok (some ⟨o, .approveRevenue p⟩) →
      fxs.countP (mails "revenue-rejected" "offeringId" p.offeringId) = 0 := by
  intro raw hmem o p hp
  have honce := h.news hl (.rejected p.offeringId) _ (.head _)
  refine honce.never fun hrejected => ?_
  obtain ⟨a, ha, happroved⟩ := h.holds_approved hl hmem hp
  obtain ⟨b, hb, hrejected⟩ := hrejected
  obtain rfl := Option.some.inj (ha.symm.trans hb)
  rw [happroved] at hrejected
  cases hrejected

/-- **Purchases are added by deposits**, and each is told. -/
theorem settled (hl : l₀.Keyed) (h : Chronicle l₀ raws fxs l) :
    Settled l₀ (settlements raws) l ∧
      List.Forall₂ (fun d fx => ∃ rest, fx = d.deposit.notice rest) (settlements raws)
        (fxs.filter tellsDeposit) := by
  induction h with
  | nil => exact ⟨.start hl, .nil⟩
  | snoc h hraw hchange ih =>
    have hfollows := h.follows hl
    obtain ⟨hsettled, htold⟩ := hchange.settles hfollows (hfollows.keyed hl) hraw ih.1
    rw [settlements_append, List.filter_append]
    exact ⟨hsettled, List.rel_append ih.2 htold⟩

/-- **Hashes are entered by approvals**, and each is told by a mail to the owner
and a fee. -/
theorem approved (hl : l₀.Keyed) (h : Chronicle l₀ raws fxs l) (k : String) :
    Option.Rel (Offering.Enters (approvals l₀ k raws)) (l₀.offerings.get? k)
        (l.offerings.get? k) ∧
      fxs.filter (mails "revenue-approved" "offeringId" k) = (approvals l₀ k raws).map (·.mail) ∧
      fxs.filter (notifiesFee k) = (approvals l₀ k raws).map (·.fee) := by
  induction h with
  | nil => exact ⟨.self fun _ _ => .of_eq rfl, rfl, rfl⟩
  | snoc h hraw hchange ih =>
    have hfollows := h.follows hl
    obtain ⟨hentered, hmails, hfees⟩ := hchange.approves hfollows (hfollows.keyed hl) hraw k
    obtain ⟨hbefore, hmailed, hcharged⟩ := ih
    rw [approvals_append, List.filter_append, List.filter_append, List.map_append,
      List.map_append, hmailed, hcharged, hmails, hfees]
    exact ⟨hbefore.comp hentered fun _ _ _ ho ho' => ho.trans ho', rfl, rfl⟩

/-- **Of every history the effects are what they should be.** -/
theorem announced (hl : l₀.Keyed) (h : Chronicle l₀ raws fxs l) : Announced l₀ raws fxs l where
  news := h.news hl
  decided := h.decided hl
  settled := (h.settled hl).1
  deposits := (h.settled hl).2
  approved k := (h.approved hl k).1
  mailed k := (h.approved hl k).2.1
  charged k := (h.approved hl k).2.2

end Chronicle

/-! ## Effects of a run -/

/-- **The effects that a log brings**, in the order of its commits: each commit
was come to from the ledgers before it. -/
inductive Emits {ι : Type} (verify : Bool) (raws : ι → InboundEvent) (l₀ : Ledgers) :
    List (Commitment ι) → List Effect → Ledgers → Prop
  | nil : Emits verify raws l₀ [] [] l₀
  | snoc {log fxs l x e c l' fx} (hlog : Emits verify raws l₀ log fxs l)
      (hraw : (raws x.of).normalize = .ok (some e))
      (hlead : (e.attempt verify l).Leads x.told (.commit c))
      (hc : c x.clock l = .ok (l', fx)) : Emits verify raws l₀ (log ++ [x]) (fxs ++ fx) l'

section Log

variable {ι : Type} {verify : Bool} {raws : ι → InboundEvent} {l₀ l : Ledgers}
  {log : List (Commitment ι)} {fxs : List Effect}

theorem Yields.emits (h : Yields verify raws l₀ log l) : ∃ fxs, Emits verify raws l₀ log fxs l := by
  induction h with
  | nil => exact ⟨[], .nil⟩
  | snoc _ hraw hlead hc ih =>
    obtain ⟨fxs, hfxs⟩ := ih
    exact ⟨_, hfxs.snoc hraw hlead hc⟩

/-- A log is a history of its events. -/
theorem Emits.chronicle (h : Emits verify raws l₀ log fxs l) :
    Chronicle l₀ ((log.map (·.of)).map raws) fxs l := by
  induction h with
  | nil => exact .nil
  | snoc _ hraw hlead hc ih =>
    rw [List.map_append, List.map_append]
    exact ih.snoc hraw ⟨_, Event.commits_of_leads hlead, hc⟩

end Log

/-! ## Effects that a host fires -/

/-- The effects that were fired, of all that happened. -/
def firedIn (happenings : List Happening) : List Effect :=
  happenings.filterMap fun
    | .fired e _ => some e
    | _ => none

theorem firedIn_append (xs ys : List Happening) :
    firedIn (xs ++ ys) = firedIn xs ++ firedIn ys :=
  List.filterMap_append

theorem firedIn_looks {xs : List Happening} (h : ∀ x ∈ xs, x.isLook = true) : firedIn xs = [] := by
  rw [firedIn, List.filterMap_eq_nil_iff]
  intro x hx
  cases x with
  | timed | asked | wrote => rfl
  | fired => cases h _ hx

theorem firedIn_zipWith {fx : List Effect} {outcomes : List Bool}
    (h : outcomes.length = fx.length) : firedIn (List.zipWith .fired fx outcomes) = fx := by
  induction fx generalizing outcomes with
  | nil => rfl
  | cons e fx ih =>
    cases outcomes with
    | nil => cases h
    | cons b outcomes =>
      exact congrArg (e :: ·) (ih (Nat.succ.inj h))

namespace Host.Quiet

variable {σ : Type} {h : Host σ} {l₀ : Ledgers} {raws : List InboundEvent} {fxs : List Effect}

/-- A dispatch goes on with a history if its event is applied, and fires what
that brings. -/
theorem chronicle_dispatch (hq : h.Quiet) (settings : DispatchSettings) (raw : InboundEvent)
    (s : σ × List Happening) (hs : Chronicle l₀ raws (firedIn s.2) (h.ledgers s.1)) :
    Chronicle l₀
      (raws ++ if (h.recording.dispatch settings raw s).1.isApplied then [raw] else [])
      (firedIn (h.recording.dispatch settings raw s).2.2)
      (h.ledgers (h.recording.dispatch settings raw s).2.1) := by
  have hdispatched := hq.recording.dispatched settings raw s
  generalize h.recording.dispatch settings raw s = out at hdispatched ⊢
  cases hdispatched with
  | notApplied hr hlooks =>
    obtain ⟨looks, hrecord, hall⟩ := record_looks hlooks
    have hledgers : h.ledgers _ = h.ledgers s.1 := hq.recording.ledgers_looks hlooks
    simpa [hr, hledgers, hrecord, firedIn_append, firedIn_looks hall] using hs
  | @applied e clock l' fx outcomes s₁ s' hraw hlooks hchanges hfires =>
    obtain ⟨looks, hrecord, hall⟩ := record_looks hlooks
    have hledgers : h.ledgers s'.1 = l' :=
      (hq.recording.ledgers_fires hfires).trans (hq.recording.write l' s₁)
    have hfired : firedIn s'.2 = firedIn s.2 ++ fx := by
      rw [record_fires hfires]
      have hwrote : firedIn [Happening.wrote l'] = [] := rfl
      simp only [Host.recording, hrecord, firedIn_append, firedIn_looks hall,
        firedIn_zipWith hfires.length_eq, hwrote, List.append_nil]
    rw [hledgers, hfired]
    exact hs.snoc hraw hchanges

/-- **Dispatching in sequence** is a history of the events that are applied. -/
theorem chronicle_dispatchAll (hq : h.Quiet) (settings : DispatchSettings)
    (rest : List InboundEvent) (s : σ × List Happening)
    (hs : Chronicle l₀ raws (firedIn s.2) (h.ledgers s.1)) :
    Chronicle l₀
      (raws ++ kept ((h.recording.dispatchAll settings rest s).1.map (·.isApplied)) rest)
      (firedIn (h.recording.dispatchAll settings rest s).2.2)
      (h.ledgers (h.recording.dispatchAll settings rest s).2.1) := by
  induction rest generalizing raws s with
  | nil => simpa [dispatchAll, kept] using hs
  | cons raw rest ih =>
    have hnext := hq.chronicle_dispatch settings raw s hs
    have hlast := ih _ hnext
    simp only [dispatchAll, List.map_cons]
    cases happlied : (h.recording.dispatch settings raw s).1.isApplied <;>
      simpa [happlied, kept] using hlast

end Host.Quiet

/-! ## Every run -/

/-- **Effects are fired once for each cause**: those of every run, up to any
moment of it, and those that a host fires while it dispatches any events in
sequence. -/
theorem announced_once (settings : DispatchSettings) :
    (∀ {ι : Type} [DecidableEq ι] {raws : ι → InboundEvent} {l₀ : Ledgers} {t : Traffic ι},
      l₀.Keyed → Traffic.Run settings raws l₀ t →
      (∃ fxs, Emits settings.verifyReceipts raws l₀ t.log fxs t.ledgers) ∧
        ∀ fxs, Emits settings.verifyReceipts raws l₀ t.log fxs t.ledgers →
          Announced l₀ (t.applied.map raws) fxs t.ledgers) ∧
    ∀ {σ : Type} {h : Host σ} (raws : List InboundEvent) (s : σ),
      h.Quiet → (h.ledgers s).Keyed →
      Announced (h.ledgers s)
        (kept ((h.recording.dispatchAll settings raws (s, [])).1.map (·.isApplied)) raws)
        (firedIn (h.recording.dispatchAll settings raws (s, [])).2.2)
        (h.ledgers (h.recording.dispatchAll settings raws (s, [])).2.1) := by
  constructor
  · intro ι _ raws l₀ t hl hrun
    exact ⟨(hrun.sound hl).yields.emits, fun fxs hfxs => hfxs.chronicle.announced hl⟩
  · intro σ h raws s hq hl
    have hstart : Chronicle (h.ledgers s) [] (firedIn []) (h.ledgers s) := .nil
    exact (hq.chronicle_dispatchAll settings raws (s, []) hstart).announced hl

/-- An approval and a claim, each delivered twice. -/
def deliveredTwice : List InboundEvent :=
  [Traffic.approveAndClaim true, Traffic.approveAndClaim true, Traffic.approveAndClaim false,
    Traffic.approveAndClaim false]

theorem announced_deliveredTwice :
    (∃ t, Traffic.Run ⟨false, 1⟩ Traffic.approveAndClaim sampleLedgers t ∧
      ∃ fxs, Emits false Traffic.approveAndClaim sampleLedgers t.log fxs t.ledgers ∧
        Announced sampleLedgers [Traffic.approveAndClaim true, Traffic.approveAndClaim false] fxs
          t.ledgers) ∧
    ∃ fxs, firedIn (Tally.host.recording.dispatchAll ⟨false, 1⟩ deliveredTwice
        (⟨sampleLedgers, 0⟩, [])).2.2 = fxs ∧
      (∃ l, Announced sampleLedgers [Traffic.approveAndClaim true, Traffic.approveAndClaim false]
        fxs l) ∧
      fxs.length = 4 ∧ fxs.countP (notifiesFee "offering") = 1 ∧
      fxs.countP (mails "withdrawal-successful" "requestId" "request") = 1 := by
  obtain ⟨hruns, hhosts⟩ := announced_once ⟨false, 1⟩
  constructor
  · obtain ⟨t, hrun, happlied⟩ :=
      @Host.Quiet.run_of_reports _ _ _ _ Traffic.approveAndClaim ⟨false, 1⟩
        ⟨sampleLedgers, [⟨.rate 1 default, Except.ok Decimal.hundred⟩], []⟩
        (Rerun.quiet_host fun _ => true) [true, false] (by decide) (fun _ => true)
        (by decide +kernel)
    obtain ⟨⟨fxs, hfxs⟩, hall⟩ := hruns keyed_sampleLedgers hrun
    have hannounced := hall fxs hfxs
    rw [happlied] at hannounced
    exact ⟨t, hrun, fxs, hfxs, hannounced⟩
  · have hannounced := @hhosts _ Tally.host deliveredTwice ⟨sampleLedgers, 0⟩
      Tally.steady_host.toQuiet keyed_sampleLedgers
    have hreports : (Tally.host.recording.dispatchAll ⟨false, 1⟩ deliveredTwice
        (⟨sampleLedgers, 0⟩, [])).1.map (·.isApplied) = [true, false, true, false] := by
      decide +kernel
    rw [hreports] at hannounced
    exact ⟨_, rfl, ⟨_, hannounced⟩, by decide +kernel, by decide +kernel, by decide +kernel⟩

end ChainLedger
