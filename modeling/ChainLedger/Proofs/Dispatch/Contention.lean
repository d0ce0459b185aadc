import ChainLedger.Proofs.Dispatch.Accounting
import ChainLedger.Proofs.Dispatch.Record
import ChainLedger.Proofs.Ledger.Room

/-!
# Approvals under contention

An approval looks at its offering, hears an exchange rate, and commits only if
the offering still has the watermark that was seen. A rival who writes the
offering in between makes the commit a conflict; the attempt leaves no trace
and is made again from what the rival left. `Host.Contested` is a row of such
attempts, one for each change of the rival.

A dispatch that is contested no more often than it may try again lands its
approval once, on top of all the changes (`RevenueApproval.Lands`); one that is
contested more often ends with the conflict and writes nothing
(`Host.Shared.approval_retried`).
-/

namespace ChainLedger

/-! ## Conditional updates -/

namespace Collection

variable {α : Type} [Document α] {c : Collection α} {now : Readings} {watermark : Instant}
  {key : String} {f : α → α} {a : α}

/-- An update goes ahead if the watermark is still the one that was read. -/
theorem updateIfUnchanged_of_eq (ha : c.get? key = some a) (h : Document.updatedAt a = watermark) :
    c.updateIfUnchanged now key watermark f = c.update now key f := by
  rw [updateIfUnchanged, ha]
  exact if_pos h

/-- It is a conflict if the watermark is another one. -/
theorem updateIfUnchanged_of_ne (ha : c.get? key = some a) (h : Document.updatedAt a ≠ watermark) :
    c.updateIfUnchanged now key watermark f =
      .error (.store (.conflict (Document.collection α) key)) := by
  rw [updateIfUnchanged, ha]
  exact if_neg h

end Collection

/-- **An offering was written** since: documents are under their own keys, and
the offering has another watermark than it had. -/
structure Ledgers.Disturbs (k : String) (l l' : Ledgers) : Prop where
  keyed : l'.Keyed
  moved : ∃ a b, l.offerings.get? k = some a ∧ l'.offerings.get? k = some b ∧
    b.updatedAt ≠ a.updatedAt

namespace Ledgers

variable {l l' : Ledgers} {k : String} {now : Readings} {clock : Clock}
  {offerings : Collection Offering} {f : Offering → Offering}

/-- Every write to an offering does this, whatever it changes there. -/
theorem disturbs_update (hl : l.Keyed) (h : l.offerings.update now k f = .ok offerings)
    (hid : ∀ a, (f a).id = a.id) (hmark : ∀ a, (f a).updatedAt = a.updatedAt) :
    l.Disturbs k { l with offerings := offerings } := by
  obtain ⟨⟨a, ha⟩, -⟩ := Collection.get?_update (k := k) h
  have hrel := Collection.rel_update h k
  rw [ha] at hrel
  obtain ⟨b, hb, hab⟩ := hrel.of_some
  rw [if_pos rfl] at hab
  obtain ⟨t, ht, rfl⟩ := hab
  refine ⟨{ hl with offerings := Collection.keyed_update h hid hl.offerings }, a, _, ha, hb, ?_⟩
  have hlt : a.updatedAt < t := hmark a ▸ ht
  exact fun heq => Instant.lt_irrefl _ (heq ▸ hlt)

/-- So does every event that leaves another offering than it found. -/
theorem disturbs_of_follows (hl : l.Keyed) (h : l.Follows l')
    (hk : (l.offerings.get? k).isSome) (hne : l'.offerings.get? k ≠ l.offerings.get? k) :
    l.Disturbs k l' := by
  obtain ⟨a, ha⟩ := Option.isSome_iff_exists.mp hk
  obtain ⟨b, hb, hlater⟩ := h.offerings.still k a ha
  refine ⟨h.keyed hl, a, b, ha, hb, fun heq => hne ?_⟩
  rw [hb, ha, hlater.eq_of_updatedAt heq]

/-- A credit neither looks at the offerings nor changes them. -/
theorem credit_offerings (offerings : Collection Offering) (beneficiary offering : String)
    (amount : Decimal) (quote : Quote) :
    Ledgers.credit clock beneficiary offering amount quote { l with offerings := offerings } =
      (l.credit clock beneficiary offering amount quote).map fun r =>
        (r.1, { r.2 with offerings := offerings }) := by
  unfold credit
  by_cases hpositive : Decimal.zero < amount
  · simp only [require_bind_of hpositive]
    -- Open entries and generations are those of the revenue.
    rw [show Ledgers.openEntry? { l with offerings := offerings }
      ⟨beneficiary, offering, quote.currency⟩ =
        l.openEntry? ⟨beneficiary, offering, quote.currency⟩ from rfl]
    cases l.openEntry? ⟨beneficiary, offering, quote.currency⟩ with
    | some e =>
      simp only [topUp]
      cases e.balance.add? amount with
      | none => rfl
      | some balance =>
        simp only [orOverflow, ok_bind]
        cases l.revenue.update (clock 0) e.id fun e => { e with balance := balance } <;> rfl
    | none =>
      simp only [openEntry]
      rw [show Ledgers.generation { l with offerings := offerings }
        ⟨beneficiary, offering, quote.currency⟩ =
          l.generation ⟨beneficiary, offering, quote.currency⟩ from rfl]
      cases l.revenue.insert (clock 1) ⟨Account.entryId _ _, beneficiary, offering, amount,
        quote.currency, quote.rate, false, clock 0 (Account.entryId _ _)⟩ <;> rfl
  · simp only [require_bind_of_not hpositive]
    rfl

end Ledgers

/-! ## Drafts of an approval -/

/-- **What one approval makes of an offering.** Its hash, which is new, is
entered once; the revenue is approved, and the platform has its share on top
of what it had. The first approval names who finalized the revenue and when,
and nothing else changes but the watermark. -/
structure Offering.Approved (sender : Address) (t : Instant) (txHash : String) (share : Decimal)
    (a b : Offering) : Prop where
  new : txHash ∉ a.revenue.approvedTransactions
  entered : b.revenue.approvedTransactions = a.revenue.approvedTransactions ++ [txHash]
  status : b.revenue.status = .approved
  commission : a.revenue.platformCommission.add? share = some b.revenue.platformCommission
  first : a.revenue.finalizedBy = none →
    b.revenue.finalizedBy = some sender ∧ b.revenue.finalizedOn = some t
  again : a.revenue.finalizedBy ≠ none →
    b.revenue.finalizedBy = a.revenue.finalizedBy ∧ b.revenue.finalizedOn = a.revenue.finalizedOn
  rest : b = { a with
    updatedAt := b.updatedAt
    revenue := { a.revenue with
      status := b.revenue.status
      approvedTransactions := b.revenue.approvedTransactions
      platformCommission := b.revenue.platformCommission
      finalizedBy := b.revenue.finalizedBy
      finalizedOn := b.revenue.finalizedOn } }

namespace RevenueApproval

/-- **An approval is planned** where it is new, the revenue of its offering was
not rejected, and the amount can be divided by the rates. -/
theorem plan_of {o : Origin} {p : RevenueApproval} {l : Ledgers} {txHash : String} {a : Offering}
    {split : RevenueSplit} (hhash : o.requireTxHash = .ok txHash) (hamount : ¬ p.amount ≤ .zero)
    (ha : l.offerings.get? p.offeringId = some a) (hstatus : a.revenue.status ≠ .rejected)
    (hnew : txHash ∉ a.revenue.approvedTransactions)
    (hsplit : RevenueSplit.of p.amount a.revenue.platformRate a.revenue.bdRate a.bdId.isSome =
      .ok split) : p.plan o l = .ok ⟨txHash, a, split⟩ := by
  rw [plan, hhash, ok_bind, require_bind_of hamount, ha, orRefuse_some_bind,
    require_bind_of hstatus, require_bind_of hnew, hsplit]
  rfl

/-- **What an attempt has worked out** when it comes to its commit. -/
structure Draft where
  plan : Plan
  rate : Decimal
  commission : Decimal
  clock : Clock

namespace Draft

variable {o : Origin} {p : RevenueApproval} {d : Draft} {l l' credited : Ledgers} {b : Offering}

/-- The commit of a draft. -/
def commit (p : RevenueApproval) (d : Draft) (l : Ledgers) :
    Except Refusal (Ledgers × List Effect) :=
  p.apply d.plan d.rate d.commission d.clock l

/-- The offering with the approval entered. -/
def enter (p : RevenueApproval) (d : Draft) (a : Offering) : Offering :=
  { a with
    revenue := p.approved (d.clock 0 d.plan.offering.id) d.plan.txHash d.commission a.revenue }

/-- The shares of the owner and of the partner are credited. -/
def credit (d : Draft) (l : Ledgers) : Except Refusal Ledgers := do
  let l ← creditShare (d.clock.later 2) d.plan.offering d.rate d.plan.offering.beneficiaryId
    d.plan.split.owner l
  creditPartner (d.clock.later 4) d.plan d.rate l

theorem creditShare_offerings {clock : Clock} {offering : Offering} {rate amount : Decimal}
    {beneficiary : String} (offerings : Collection Offering)
    (h : creditShare clock offering rate beneficiary amount l = .ok l') :
    creditShare clock offering rate beneficiary amount { l with offerings := offerings } =
      .ok { l' with offerings := offerings } := by
  unfold creditShare at h ⊢
  split at h
  · next hpositive =>
    obtain ⟨⟨id, l''⟩, hcredit, rfl⟩ := map_eq_ok.mp h
    rw [if_pos hpositive, Ledgers.credit_offerings, hcredit]
    rfl
  · next hpositive =>
    cases h
    exact if_neg hpositive

/-- The credits go through whatever becomes of the offerings. -/
theorem credit_offerings (offerings : Collection Offering) (h : d.credit l = .ok credited) :
    d.credit { l with offerings := offerings } = .ok { credited with offerings := offerings } := by
  obtain ⟨l₁, howner, hpartner⟩ := bind_eq_ok.mp h
  refine bind_eq_ok.mpr ⟨_, creditShare_offerings offerings howner, ?_⟩
  unfold creditPartner at hpartner ⊢
  split at hpartner
  · exact creditShare_offerings offerings hpartner
  · cases hpartner
    rfl

/-- The shares are credited in the revenue, and nothing else changes. -/
theorem of_credit (h : d.credit l = .ok credited) :
    credited = { l with revenue := credited.revenue } := by
  obtain ⟨l₁, howner, hpartner⟩ := bind_eq_ok.mp h
  rw [of_creditPartner hpartner, of_creditShare howner]

/-- **A draft is refused** where the offering has another watermark by now. -/
theorem commit_of_ne (hb : l.offerings.get? d.plan.offering.id = some b)
    (hne : b.updatedAt ≠ d.plan.offering.updatedAt) :
    d.commit p l = .error (.store (.conflict "offerings" d.plan.offering.id)) := by
  rw [commit, apply, Collection.updateIfUnchanged_of_ne hb hne]
  rfl

/-- A planned draft makes of the offering what one approval makes of it. -/
theorem approved_enter (hplan : p.plan o l = .ok d.plan)
    (hcommission : RevenueApproval.commission d.plan = .ok d.commission) (t : Instant) :
    Offering.Approved p.sender (d.clock 0 d.plan.offering.id) d.plan.txHash d.plan.split.platform
      d.plan.offering { d.enter p d.plan.offering with updatedAt := t } := by
  obtain ⟨-, -, -, -, hnew, -⟩ := of_plan hplan
  refine ⟨hnew, rfl, rfl, orOverflow_eq_ok.mp hcommission, fun hfirst => ?_, fun hagain => ?_, rfl⟩
  · rw [← Option.isNone_iff_eq_none] at hfirst
    exact ⟨if_pos hfirst, if_pos hfirst⟩
  · rw [ne_eq, ← Option.isNone_iff_eq_none] at hagain
    exact ⟨if_neg hagain, if_neg hagain⟩

/-- **A draft landed** on some ledgers: it was worked out from the offering
there, which is as it was but for the one approval that was entered; the shares
were credited, and nothing else changed. -/
structure Lands (o : Origin) (p : RevenueApproval) (d : Draft) (l l' : Ledgers) : Prop where
  planned : p.plan o l = .ok d.plan
  commission : RevenueApproval.commission d.plan = .ok d.commission
  /-- The amount is divided by the rates of the offering, and the event is
  approved there under its hash. -/
  approved : ∃ a b, o.txHash = some d.plan.txHash ∧ l.offerings.get? p.offeringId = some a ∧
    l'.offerings.get? p.offeringId = some b ∧
    RevenueSplit.of p.amount a.revenue.platformRate a.revenue.bdRate a.bdId.isSome =
      .ok d.plan.split ∧
    a.Approved p.sender (d.clock 0 p.offeringId) d.plan.txHash d.plan.split.platform b
  entered : ∃ a t, l.offerings.get? p.offeringId = some a ∧ a.updatedAt < t ∧
    l'.offerings.get? p.offeringId = some { d.enter p a with updatedAt := t }
  others : ∀ k, k ≠ p.offeringId → l'.offerings.get? k = l.offerings.get? k
  credited : ∃ credited, d.credit l = .ok credited ∧
    l' = { l with offerings := l'.offerings, revenue := credited.revenue }
  shares : l.SingleOpen → Ledgers.Credits (fun a =>
    shareOf ⟨d.plan.offering.beneficiaryId, d.plan.offering.id, d.plan.offering.currency⟩
      d.plan.split.owner a ++
    partnerShareOf (partnerAccount d.plan.offering) d.plan.split.bd a) l l'

/-- **A draft lands** on the ledgers it was worked out from, if the credits go
through and the offering has a watermark left. -/
theorem exists_lands (hl : l.Keyed) (hplan : p.plan o l = .ok d.plan)
    (hcommission : RevenueApproval.commission d.plan = .ok d.commission)
    (hroom : 0 < d.plan.offering.updatedAt.room) (hcredit : d.credit l = .ok credited) :
    ∃ l', d.commit p l = .ok (l', effects d.plan) ∧ d.Lands o p l l' := by
  obtain ⟨hid, hget⟩ := Plan.offering_eq hl hplan
  obtain ⟨offerings, hupdate⟩ : ∃ offerings,
      l.offerings.update (d.clock 1) d.plan.offering.id (d.enter p) = .ok offerings :=
    Collection.exists_update hget hroom
  have hcommit :
      d.commit p l = .ok ({ credited with offerings := offerings }, effects d.plan) := by
    obtain ⟨l₁, howner, hpartner⟩ := bind_eq_ok.mp (credit_offerings offerings hcredit)
    have hswap : l.offerings.updateIfUnchanged (d.clock 1) d.plan.offering.id
        d.plan.offering.updatedAt (d.enter p) = .ok offerings :=
      (Collection.updateIfUnchanged_of_eq hget rfl).trans hupdate
    exact bind_eq_ok.mpr ⟨_, hswap, bind_eq_ok.mpr ⟨_, howner, bind_eq_ok.mpr ⟨_, hpartner, rfl⟩⟩⟩
  obtain ⟨t, ht, hwritten⟩ : ∃ t, d.plan.offering.updatedAt < t ∧
      offerings.get? p.offeringId = some { d.enter p d.plan.offering with updatedAt := t } := by
    have hrel := Collection.rel_update hupdate d.plan.offering.id
    rw [hget] at hrel
    obtain ⟨b, hb, hab⟩ := hrel.of_some
    rw [if_pos rfl] at hab
    obtain ⟨t, ht, rfl⟩ := hab
    exact ⟨t, ht, hid ▸ hb⟩
  obtain ⟨hhash, -, hseen, -, -, hsplit⟩ := of_plan hplan
  refine ⟨_, hcommit, hplan, hcommission, ?_, ⟨_, t, hseen, ht, hwritten⟩, fun k hk => ?_,
    ⟨credited, hcredit, ?_⟩, fun hs => credits_apply hl hs hcommit⟩
  · exact ⟨_, _, hhash, hseen, hwritten, hsplit, hid ▸ approved_enter hplan hcommission t⟩
  · exact Collection.get?_update_of_ne hupdate (hid.symm ▸ hk)
  · rw [of_credit hcredit]

end Draft

end RevenueApproval

/-! ## Contested attempts -/

/-- The ledgers after some changes. -/
def Ledgers.afterAll (changes : List (Ledgers → Ledgers)) (l : Ledgers) : Ledgers :=
  changes.foldl (fun l change => change l) l

namespace Host

open RevenueApproval

variable {σ : Type} {h : Host σ} {o : Origin} {p : RevenueApproval} {d : Draft}
  {changes : List (Ledgers → Ledgers)} {s s' : σ} {verify : Bool}

/-- **A host that others write to**: what it writes is read back, and effects
leave the ledgers alone, but between looks they may change in any way. -/
structure Shared (h : Host σ) : Prop where
  write : ∀ l s, h.ledgers (h.write l s) = l
  fire : ∀ e s, h.ledgers (h.fire e s).2 = h.ledgers s

/-- **An attempt to approve comes to its commit** with a draft: all of it is
worked out from the ledgers and the answers of this attempt. -/
structure Drafts (h : Host σ) (o : Origin) (p : RevenueApproval) (s : σ) (d : Draft) (s' : σ) :
    Prop where
  plan : p.plan o (h.ledgers s) = .ok d.plan
  rate : (h.answer (.rate o.chain d.plan.offering.currency) s).1 = .ok d.rate
  commission : RevenueApproval.commission d.plan = .ok d.commission
  clock : h.clock (h.answer (.rate o.chain d.plan.offering.currency) s).2 = (d.clock, s')

/-- **A row of contested attempts**: each comes to its commit, and a rival has
written the offering since it was seen. -/
inductive Contested (h : Host σ) (o : Origin) (p : RevenueApproval) :
    List (Ledgers → Ledgers) → σ → σ → Prop
  | nil (s : σ) : Contested h o p [] s s
  | cons {change : Ledgers → Ledgers} {changes : List (Ledgers → Ledgers)} {d : Draft} {s s₁ s' : σ}
      (hd : h.Drafts o p s d s₁) (hchange : h.ledgers s₁ = change (h.ledgers s))
      (hdisturbs : (h.ledgers s).Disturbs p.offeringId (h.ledgers s₁))
      (hrest : Contested h o p changes s₁ s') : Contested h o p (change :: changes) s s'

/-- An attempt that comes to its commit ends as the commit does. -/
theorem Drafts.attempt_eq (hd : h.Drafts o p s d s') :
    h.attempt verify ⟨o, .approveRevenue p⟩ s =
      match d.commit p (h.ledgers s') with
      | .ok (l, fx) => (.ok fx, h.write l s')
      | .error r => (.error r, s') := by
  obtain ⟨hplan, hrate, hcommission, hclock⟩ := hd
  simp only [attempt, Event.attempt, RevenueApproval.attempt, hplan, Attempt.check, run, hrate,
    hcommission, Host.commit, hclock]
  rfl

/-- **A contested attempt** is a conflict, and writes nothing. -/
theorem Drafts.attempt_of_disturbs (hd : h.Drafts o p s d s') (hl : (h.ledgers s).Keyed)
    (hdisturbs : (h.ledgers s).Disturbs p.offeringId (h.ledgers s')) :
    h.attempt verify ⟨o, .approveRevenue p⟩ s =
      (.error (.store (.conflict "offerings" p.offeringId)), s') := by
  obtain ⟨hid, hget⟩ := Plan.offering_eq hl hd.plan
  obtain ⟨a, b, ha, hb, hne⟩ := hdisturbs.moved
  obtain rfl := Option.some.inj (ha.symm.trans (hid ▸ hget))
  rw [hd.attempt_eq, Draft.commit_of_ne (hid.symm ▸ hb) hne, hid]

namespace Contested

/-- Nothing but the changes of the rival is left of contested attempts. -/
theorem ledgers_eq (hc : h.Contested o p changes s s') :
    h.ledgers s' = (h.ledgers s).afterAll changes := by
  induction hc with
  | nil => rfl
  | cons _ hchange _ _ ih => rw [ih, hchange]; rfl

theorem keyed (hc : h.Contested o p changes s s') (hl : (h.ledgers s).Keyed) :
    (h.ledgers s').Keyed := by
  induction hc with
  | nil => exact hl
  | cons _ _ hdisturbs _ ih => exact ih hdisturbs.keyed

/-- **Contested attempts are made again**, as long as some are left. -/
theorem attempts_add (hc : h.Contested o p changes s s') (hl : (h.ledgers s).Keyed) (more : Nat) :
    h.attempts verify ⟨o, .approveRevenue p⟩ (changes.length + more) s =
      h.attempts verify ⟨o, .approveRevenue p⟩ more s' := by
  induction hc with
  | nil => rw [List.length_nil, Nat.zero_add]
  | @cons change changes d s s₁ s' hd _ hdisturbs _ ih =>
    rw [List.length_cons, Nat.add_right_comm, attempts, hd.attempt_of_disturbs hl hdisturbs]
    exact ih hdisturbs.keyed

/-- **When none are left** the dispatch ends with the conflict. -/
theorem attempts_length (hc : h.Contested o p changes s s') (hl : (h.ledgers s).Keyed)
    {more : Nat} (hmore : changes.length = more + 1) :
    h.attempts verify ⟨o, .approveRevenue p⟩ more s =
      (.error (.store (.conflict "offerings" p.offeringId)), s') := by
  induction hc generalizing more with
  | nil => cases hmore
  | @cons change changes d s s₁ s' hd _ hdisturbs hrest ih =>
    have hattempt : h.attempt verify ⟨o, .approveRevenue p⟩ s = _ :=
      hd.attempt_of_disturbs hl hdisturbs
    cases more with
    | zero =>
      cases hrest with
      | nil => exact hattempt
      | cons => cases hmore
    | succ more =>
      rw [attempts, hattempt]
      exact ih hdisturbs.keyed (Nat.succ.inj hmore)

end Contested

/-- An attempt whose draft lands is written. -/
theorem Drafts.attempts_of_ok {l : Ledgers} {fx : List Effect} (hd : h.Drafts o p s d s')
    (hcommit : d.commit p (h.ledgers s') = .ok (l, fx)) (more : Nat) :
    h.attempts verify ⟨o, .approveRevenue p⟩ more s = (.ok fx, h.write l s') := by
  have hattempt : h.attempt verify ⟨o, .approveRevenue p⟩ s = (.ok fx, h.write l s') := by
    rw [hd.attempt_eq, hcommit]
  cases more with
  | zero => exact hattempt
  | succ more => rw [attempts, hattempt]

/-! ## What the record says -/

/-- The questions that were asked, of all that happened. -/
def askedIn (happenings : List Happening) : List Question :=
  happenings.filterMap fun
    | .asked q => some q
    | _ => none

/-- The ledgers that were written, of all that happened. -/
def writtenIn (happenings : List Happening) : List Ledgers :=
  happenings.filterMap fun
    | .wrote l => some l
    | _ => none

theorem askedIn_append (xs ys : List Happening) : askedIn (xs ++ ys) = askedIn xs ++ askedIn ys :=
  List.filterMap_append

theorem writtenIn_append (xs ys : List Happening) :
    writtenIn (xs ++ ys) = writtenIn xs ++ writtenIn ys :=
  List.filterMap_append

/-- A write that is followed by its effects is one write, and asks nothing. -/
theorem askedIn_written (l : Ledgers) (fx : List Effect) (outcomes : List Bool) :
    askedIn (.wrote l :: List.zipWith .fired fx outcomes) = [] ∧
      writtenIn (.wrote l :: List.zipWith .fired fx outcomes) = [l] := by
  induction fx generalizing outcomes with
  | nil => exact ⟨rfl, rfl⟩
  | cons e fx ih =>
    cases outcomes with
    | nil => exact ⟨rfl, rfl⟩
    | cons b outcomes => exact ih outcomes

/-- **An attempt asks one question** before its commit, and reads the clock. -/
theorem Drafts.recording (hd : h.Drafts o p s d s') (past : List Happening) :
    h.recording.Drafts o p (s, past) d
      (s', past ++ [.asked (.rate o.chain d.plan.offering.currency), .timed]) where
  plan := hd.plan
  rate := hd.rate
  commission := hd.commission
  clock := by simp [Host.recording, hd.clock]

theorem Contested.recording (hc : h.Contested o p changes s s') (past : List Happening) :
    ∃ past', h.recording.Contested o p changes (s, past) (s', past') ∧
      (askedIn past').length = (askedIn past).length + changes.length ∧
      writtenIn past' = writtenIn past := by
  induction hc generalizing past with
  | nil s => exact ⟨past, .nil _, rfl, rfl⟩
  | @cons change changes d s s₁ s' hd hchange hdisturbs _ ih =>
    obtain ⟨past', hrest, hasked, hwritten⟩ :=
      ih (past ++ [.asked (.rate o.chain d.plan.offering.currency), .timed])
    refine ⟨past', .cons (hd.recording past) hchange hdisturbs hrest, ?_, ?_⟩
    · rw [hasked, askedIn_append, List.length_append, List.length_cons]
      exact Nat.add_right_comm ..
    · rw [hwritten, writtenIn_append]
      exact List.append_nil _

/-- The record of a dispatch. -/
def record (h : Host σ) (settings : DispatchSettings) (raw : InboundEvent) (s : σ) :
    List Happening :=
  (h.recording.dispatch settings raw (s, [])).2.2

section Dispatch

variable {settings : DispatchSettings} {raw : InboundEvent} {e : Event} {past : List Happening}
  {l : Ledgers} {fx : List Effect} {r : Refusal}

/-- A dispatch whose attempts end with a refusal ends with it as well. -/
theorem dispatch_of_refused (hraw : raw.normalize = .ok (some e))
    (hattempts : h.recording.attempts settings.verifyReceipts e settings.maxConflictRetries
      (s, []) = (.error r, s', past)) :
    h.dispatch settings raw s = (.ofRefusal r, s') ∧ h.record settings raw s = past := by
  have hrecorded : h.recording.dispatch settings raw (s, []) = (.ofRefusal r, s', past) := by
    simp only [dispatch, hraw, apply, hattempts]
  have hstart : s = (s, ([] : List Happening)).1 := rfl
  obtain ⟨hreport, hstate⟩ := h.similar_recording.dispatch settings raw hstart
  rw [hrecorded] at hreport hstate
  exact ⟨Prod.ext hreport hstate, by rw [record, hrecorded]⟩

theorem Shared.ledgers_fires (hh : h.Shared) {outcomes : List Bool}
    (hfires : h.Fires fx s outcomes s') : h.ledgers s' = h.ledgers s := by
  induction hfires with
  | nil => rfl
  | cons _ ih => rw [ih, hh.fire]

theorem Shared.recording (hh : h.Shared) : h.recording.Shared where
  write l s := hh.write l s.1
  fire e s := hh.fire e s.1

/-- A dispatch with an attempt that was written fires the effects, and does no
more. -/
theorem Shared.dispatch_of_written (hh : h.Shared) (hraw : raw.normalize = .ok (some e))
    (hattempts : h.recording.attempts settings.verifyReceipts e settings.maxConflictRetries
      (s, []) = (.ok fx, h.recording.write l (s', past))) :
    h.ledgers (h.dispatch settings raw s).2 = l ∧
      ∃ outcomes, (h.dispatch settings raw s).1 = .applied fx.length (outcomes.count false) ∧
        h.record settings raw s = past ++ .wrote l :: List.zipWith .fired fx outcomes := by
  obtain ⟨outcomes, hfires, hcount⟩ :=
    h.recording.fires_fireAll fx (h.recording.write l (s', past))
  have hrecorded : h.recording.dispatch settings raw (s, []) =
      (.applied fx.length (outcomes.count false),
        (Effect.fireAll h.recording.fire fx (h.recording.write l (s', past))).2) := by
    simp only [dispatch, hraw, apply, hattempts, hcount]
  have hstart : s = (s, ([] : List Happening)).1 := rfl
  obtain ⟨hreport, hstate⟩ := h.similar_recording.dispatch settings raw hstart
  rw [hrecorded] at hreport hstate
  refine ⟨?_, outcomes, hreport, ?_⟩
  · rw [hstate]
    exact (hh.recording.ledgers_fires hfires).trans (hh.write l s')
  · rw [record, hrecorded, record_fires hfires]
    exact List.append_assoc ..

end Dispatch

/-- **An attempt that nobody disturbs**: it comes to its commit on the ledgers
that it saw, the credits go through, and the offering has a watermark left. -/
structure Undisturbed (h : Host σ) (o : Origin) (p : RevenueApproval) (s : σ) (d : Draft)
    (s' : σ) : Prop extends h.Drafts o p s d s' where
  same : h.ledgers s' = h.ledgers s
  credits : ∃ l, d.credit (h.ledgers s) = .ok l
  room : 0 < d.plan.offering.updatedAt.room

/-- **An approval that went through** although a rival made some changes. -/
structure Retried (h : Host σ) (settings : DispatchSettings) (raw : InboundEvent) (o : Origin)
    (p : RevenueApproval) (changes : List (Ledgers → Ledgers)) (s : σ) (d : Draft) : Prop where
  /-- The event is applied, and each of its effects is fired. -/
  applied : ∃ failed, (h.dispatch settings raw s).1 = .applied 2 failed
  /-- The approval landed once, on top of all the changes. -/
  lands : d.Lands o p ((h.ledgers s).afterAll changes) (h.ledgers (h.dispatch settings raw s).2)
  /-- There was one attempt more than there were changes. -/
  asked : (askedIn (h.record settings raw s)).length = changes.length + 1
  /-- Only the last of them wrote. -/
  written : writtenIn (h.record settings raw s) = [h.ledgers (h.dispatch settings raw s).2]

/-- **An approval that was given up** after a rival made some changes. -/
structure Exhausted (h : Host σ) (settings : DispatchSettings) (raw : InboundEvent)
    (changes : List (Ledgers → Ledgers)) (s : σ) : Prop where
  /-- The event fails, and needs no operator. -/
  failed : ∃ r, (h.dispatch settings raw s).1 = .failed r ∧ r.isFatal = false
  /-- The changes are all that is left. -/
  left : h.ledgers (h.dispatch settings raw s).2 = (h.ledgers s).afterAll changes
  /-- There were as many attempts as there may be. -/
  asked : (askedIn (h.record settings raw s)).length = settings.maxConflictRetries + 1
  /-- None of them wrote. -/
  written : writtenIn (h.record settings raw s) = []

section Retries

variable {settings : DispatchSettings} {raw : InboundEvent} {s'' : σ}

/-- **As many retries as changes** are enough. -/
theorem Contested.retried (hc : h.Contested o p changes s s') (hh : h.Shared)
    (hraw : raw.normalize = .ok (some ⟨o, .approveRevenue p⟩)) (hl : (h.ledgers s).Keyed)
    (hle : changes.length ≤ settings.maxConflictRetries) (hd : h.Undisturbed o p s' d s'') :
    h.Retried settings raw o p changes s d := by
  obtain ⟨past, hrecorded, hasked, hwritten⟩ := hc.recording []
  obtain ⟨credited, hcredit⟩ := hd.credits
  obtain ⟨l, hcommit, hlands⟩ :=
    Draft.exists_lands (hc.keyed hl) hd.plan hd.commission hd.room hcredit
  obtain ⟨more, hmore⟩ := Nat.exists_eq_add_of_le hle
  have hattempts : h.recording.attempts settings.verifyReceipts ⟨o, .approveRevenue p⟩
      settings.maxConflictRetries (s, []) =
        (.ok (effects d.plan), h.recording.write l
          (s'', past ++ [.asked (.rate o.chain d.plan.offering.currency), .timed])) := by
    rw [hmore, hrecorded.attempts_add hl]
    refine (hd.toDrafts.recording past).attempts_of_ok ?_ more
    show d.commit p (h.ledgers s'') = _
    rw [hd.same, hcommit]
  obtain ⟨hledgers, outcomes, hreport, hrecord⟩ := hh.dispatch_of_written hraw hattempts
  obtain ⟨hnone, hone⟩ := askedIn_written l (effects d.plan) outcomes
  refine ⟨⟨_, hreport⟩, ?_, ?_, ?_⟩
  · rw [hledgers, ← hc.ledgers_eq]
    exact hlands
  · rw [hrecord, askedIn_append, hnone, List.append_nil, askedIn_append, List.length_append,
      hasked, askedIn, List.filterMap_nil, List.length_nil, Nat.zero_add]
    rfl
  · rw [hrecord, writtenIn_append, hone, writtenIn_append, hwritten, hledgers]
    rfl

/-- **One change more** than there are retries is one too many. -/
theorem Contested.exhausted (hc : h.Contested o p changes s s')
    (hraw : raw.normalize = .ok (some ⟨o, .approveRevenue p⟩)) (hl : (h.ledgers s).Keyed)
    (hlength : changes.length = settings.maxConflictRetries + 1) :
    h.Exhausted settings raw changes s := by
  obtain ⟨past, hrecorded, hasked, hwritten⟩ := hc.recording []
  have hattempts : h.recording.attempts settings.verifyReceipts ⟨o, .approveRevenue p⟩
      settings.maxConflictRetries (s, []) = _ := hrecorded.attempts_length hl hlength
  obtain ⟨hdispatch, hrecord⟩ := dispatch_of_refused hraw hattempts
  refine ⟨⟨_, by rw [hdispatch]; rfl, rfl⟩, ?_, ?_, ?_⟩
  · rw [hdispatch]
    exact hc.ledgers_eq
  · rw [hrecord, hasked, hlength]
    exact Nat.zero_add _
  · rw [hrecord, hwritten]
    rfl

end Retries

/-- **Conflicts are retried up to the bound, and no update is lost.** A rival
writes the offering between the look and the commit of the first attempts of an
approval, once for each of `changes`.

If there are as many retries, the dispatch makes one attempt more than there
are changes, and writes once: the approval as the last attempt worked it out,
on top of all the changes. If there are fewer, it makes all the attempts it
may, writes nothing, and fails without being fatal; what the rival did in the
meantime is all that is left. -/
theorem Shared.approval_retried (hh : h.Shared) (settings : DispatchSettings)
    (changes : List (Ledgers → Ledgers)) {raw : InboundEvent}
    (hraw : raw.normalize = .ok (some ⟨o, .approveRevenue p⟩))
    (hc : h.Contested o p (changes.take (settings.maxConflictRetries + 1)) s s')
    (hl : (h.ledgers s).Keyed) :
    (changes.length ≤ settings.maxConflictRetries → ∀ d s'', h.Undisturbed o p s' d s'' →
      h.Retried settings raw o p changes s d) ∧
    (settings.maxConflictRetries < changes.length →
      h.Exhausted settings raw (changes.take (settings.maxConflictRetries + 1)) s) := by
  constructor
  · intro hle d s'' hd
    rw [List.take_of_length_le (by omega)] at hc
    exact hc.retried hh hraw hl hle hd
  · intro hlt
    exact hc.exhausted hraw hl (List.length_take_of_le hlt)

end Host

/-! ## A rival at work -/

/-- Ledgers, and a rival who makes one more change to them each time an
exchange rate is looked up. -/
structure Rivalry where
  ledgers : Ledgers
  pending : List (Ledgers → Ledgers)

namespace Rivalry

open RevenueApproval

/-- Every rate is known; the rival has made a change meanwhile. -/
def answer : (q : Question) → Rivalry → q.Answer × Rivalry
  | .rate .., s => (.ok Decimal.hundred, ⟨s.pending.headD id s.ledgers, s.pending.tail⟩)
  | .owner .., s => (.error (.trap .instant), s)
  | .supply .., s => (.error (.trap .instant), s)
  | .receipt .., s => (.error (.trap .instant), s)

/-- **The host that the rival shares.** -/
def host : Host Rivalry where
  ledgers := Rivalry.ledgers
  write l s := { s with ledgers := l }
  clock s := (.still .epoch, s)
  answer := answer
  fire _ s := (true, s)

theorem shared_host : host.Shared := ⟨fun _ _ => rfl, fun _ _ => rfl⟩

/-- All of an offering is sold. -/
def soldOut (o : Offering) : Offering :=
  { o with availableSupply := .zero, soldValue := .hundred }

/-- The rival sells all of the offering. -/
def sell (l : Ledgers) : Ledgers :=
  match l.offerings.update Instant.epoch "offering" soldOut with
  | .ok offerings => { l with offerings := offerings }
  | .error _ => l

theorem disturbs_sell {l : Ledgers} {a : Offering} (hl : l.Keyed)
    (ha : l.offerings.get? "offering" = some a) (hroom : 0 < a.updatedAt.room) :
    l.Disturbs "offering" (sell l) := by
  obtain ⟨offerings, hupdate⟩ : ∃ offerings,
      l.offerings.update Instant.epoch "offering" soldOut = .ok offerings :=
    Collection.exists_update ha hroom
  rw [show sell l = { l with offerings := offerings } by rw [sell, hupdate]]
  exact Ledgers.disturbs_update hl hupdate (fun _ => rfl) fun _ => rfl

/-- Where the approval of a hundred comes from. -/
def origin : Origin := ⟨"approval", 1, default, some "0x01"⟩

/-- The approval of a hundred. -/
def approval : RevenueApproval := ⟨"offering", .hundred, .ofNat 1⟩

theorem normalize_approval : (Traffic.approveAndClaim true).normalize =
    .ok (some ⟨origin, .approveRevenue approval⟩) := by
  with_unfolding_all rfl

/-- So many units, as a decimal. -/
def amount (n : Int) : Decimal := (Decimal.ofParts? n 0).getD .zero

/-- What is worked out for an offering: fifteen for the platform, and the rest
for the owner. -/
def draftFor (o : Offering) : Draft where
  plan := ⟨"0x01", o, amount 15, .zero, amount 85⟩
  rate := .hundred
  commission := amount 15
  clock := .still .epoch

/-- The offering of the sample, all of it sold a microsecond later. -/
def soldSample : Offering :=
  { soldOut sampleOffering with updatedAt := (Instant.epoch.succMicro?).getD .epoch }

theorem drafts_approval {l : Ledgers} {a : Offering} (ha : l.offerings.get? "offering" = some a)
    (hbd : a.bdId = none) (hrevenue : a.revenue = sampleOffering.revenue)
    (pending : List (Ledgers → Ledgers)) :
    host.Drafts origin approval ⟨l, pending⟩ (draftFor a) ⟨pending.headD id l, pending.tail⟩ where
  plan := by
    refine plan_of rfl (by decide) ha (by rw [hrevenue]; decide) (by rw [hrevenue]; decide) ?_
    rw [hrevenue, hbd]
    with_unfolding_all rfl
  rate := rfl
  commission := by
    rw [RevenueApproval.commission, draftFor, hrevenue]
    with_unfolding_all rfl
  clock := rfl

/-- **A sale contests an attempt.** -/
theorem contested_sell {l : Ledgers} {a : Offering} {changes pending : List (Ledgers → Ledgers)}
    {s : Rivalry} (hl : l.Keyed) (ha : l.offerings.get? "offering" = some a) (hbd : a.bdId = none)
    (hrevenue : a.revenue = sampleOffering.revenue) (hroom : 0 < a.updatedAt.room)
    (hrest : host.Contested origin approval changes ⟨sell l, pending⟩ s) :
    host.Contested origin approval (sell :: changes) ⟨l, sell :: pending⟩ s :=
  .cons (drafts_approval ha hbd hrevenue _) rfl (disturbs_sell hl ha hroom) hrest

/-- With one retry, the approval lands on an offering that is sold meanwhile;
two sales are one too many. -/
theorem approval_retried_sales :
    host.Retried ⟨false, 1⟩ (Traffic.approveAndClaim true) origin approval [sell]
        ⟨sampleLedgers, [sell]⟩ (draftFor soldSample) ∧
      host.Exhausted ⟨false, 1⟩ (Traffic.approveAndClaim true) [sell, sell]
        ⟨sampleLedgers, [sell, sell]⟩ := by
  have hsample : sampleLedgers.offerings.get? "offering" = some sampleOffering := by
    decide +kernel
  have hsold : (sell sampleLedgers).offerings.get? "offering" = some soldSample := by
    decide +kernel
  have hkeyed := (disturbs_sell keyed_sampleLedgers hsample (by decide)).keyed
  have honce : host.Contested origin approval [sell] ⟨sampleLedgers, [sell]⟩
      ⟨sell sampleLedgers, []⟩ :=
    contested_sell keyed_sampleLedgers hsample rfl rfl (by decide) (.nil _)
  have htwice : host.Contested origin approval [sell, sell] ⟨sampleLedgers, [sell, sell]⟩
      ⟨sell (sell sampleLedgers), []⟩ :=
    contested_sell keyed_sampleLedgers hsample rfl rfl (by decide) <|
      contested_sell hkeyed hsold rfl rfl (by decide +kernel) (.nil _)
  have hlast : host.Undisturbed origin approval ⟨sell sampleLedgers, []⟩ (draftFor soldSample)
      ⟨sell sampleLedgers, []⟩ :=
    ⟨drafts_approval hsold rfl rfl [], rfl, ⟨_, by with_unfolding_all rfl⟩, by decide +kernel⟩
  constructor
  · exact (shared_host.approval_retried ⟨false, 1⟩ [sell] normalize_approval honce
      keyed_sampleLedgers).1 (by decide) _ _ hlast
  · exact (shared_host.approval_retried ⟨false, 1⟩ [sell, sell] normalize_approval htwice
      keyed_sampleLedgers).2 (by decide)

end Rivalry

end ChainLedger
