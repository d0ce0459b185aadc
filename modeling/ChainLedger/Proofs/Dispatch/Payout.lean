import ChainLedger.Proofs.Dispatch.Atomic
import ChainLedger.Proofs.Dispatch.History

/-!
# Claims pay once, and what was asked for

A claim that is applied pays the first item of its currency at the step that
commits it, and no other step withdraws an entry (`payouts_of_run`). What is
withdrawn stays so, and no entry is paid out twice.

The marks on a request are another matter. A claim marks every item of its
currency, and pays the first of them alone. Where a request has one item of
the currency, the marks are backed by the ledger (`Host.Quiet.backed`); where
it has two, the second is marked as paid out while what it covers is still
open (`doubled_not_backed`).
-/

namespace ChainLedger

/-- The entry under a key is withdrawn. -/
def Ledgers.Withdrawn (l : Ledgers) (k : String) : Prop :=
  l.revenue.Holds k (·.isWithdrawn = true)

/-- **No event but a claim withdraws an entry.** -/
theorem Event.Changes.claims {e : Event} {l l' : Ledgers} {clock : Clock} {fx : List Effect}
    (hl : l.Keyed) (hs : l.SingleOpen) (h : e.Changes clock l l' fx) {k : String}
    (hbefore : ¬ l.Withdrawn k) (hafter : l'.Withdrawn k) : ∃ p, e.payload = .claimRevenue p := by
  obtain ⟨entry, hk, hwithdrawn⟩ := hafter
  cases hearns : e.payload.earns with
  | false =>
    rw [(h.sameEarnings hearns).revenue] at hk
    exact absurd ⟨entry, hk, hwithdrawn⟩ hbefore
  | true =>
    obtain ⟨o, p⟩ := e
    obtain ⟨c, hcommits, hc⟩ := h
    cases hcommits with
    | approveRevenue =>
      have hcredits := RevenueApproval.credits_apply hl hs hc
      exact absurd ⟨entry, hcredits.closed k entry hk hwithdrawn, hwithdrawn⟩ hbefore
    | @claimRevenue p => exact ⟨p, rfl⟩
    | _ => cases hearns

namespace Traffic

open Relation (ReflTransGen)

variable {ι : Type} [DecidableEq ι] {settings : DispatchSettings} {raws : ι → InboundEvent}
  {l₀ : Ledgers} {verify : Bool} {t t' : Traffic ι}

/-- A step withdraws the entry under a key. -/
def Closes (k : String) (t t' : Traffic ι) : Prop :=
  ¬ t.ledgers.Withdrawn k ∧ t'.ledgers.Withdrawn k

/-- **What claims pay** in a run up to some moment. -/
structure Payouts (settings : DispatchSettings) (raws : ι → InboundEvent) (l₀ : Ledgers)
    (t : Traffic ι) : Prop where
  /-- A claim that was applied paid the first item of its currency. -/
  paid : ∀ i o p, (raws i).normalize = .ok (some ⟨o, .claimRevenue p⟩) → i ∈ t.applied →
    ∃ u u' request item, Run settings raws l₀ u ∧ Step settings.verifyReceipts u u' ∧
      ReflTransGen (Step settings.verifyReceipts) u' t ∧ u'.applied = u.applied ++ [i] ∧
      u.ledgers.withdrawals.get? p.requestId = some request ∧
      request.items.find? (·.currency = p.currency) = some item ∧
      RevenueClaim.Pays request item u.ledgers u'.ledgers
  /-- An entry is closed by the commit of a claim, and never again. -/
  once : ∀ u u' k, Run settings raws l₀ u → Step settings.verifyReceipts u u' →
    ReflTransGen (Step settings.verifyReceipts) u' t → Closes k u u' →
    (∃ i o p, (raws i).normalize = .ok (some ⟨o, .claimRevenue p⟩) ∧
      u'.applied = u.applied ++ [i]) ∧
    ∀ v v', ReflTransGen (Step settings.verifyReceipts) u' v →
      Step settings.verifyReceipts v v' → ¬ Closes k v v'

/-- The step that applies a claim pays it. -/
theorem Sound.pays {i : ι} {o : Origin} {p : RevenueClaim} (h : t.Sound verify raws l₀)
    (hs : t.ledgers.SingleOpen) (hstep : Step verify t t')
    (hraw : (raws i).normalize = .ok (some ⟨o, .claimRevenue p⟩))
    (happlied : t'.applied = t.applied ++ [i]) :
    ∃ request item, t.ledgers.withdrawals.get? p.requestId = some request ∧
      request.items.find? (·.currency = p.currency) = some item ∧
      RevenueClaim.Pays request item t.ledgers t'.ledgers := by
  rcases h.step_cases hstep with ⟨-, hlog⟩ | ⟨x, e, c, fx, hlog, hraw', hlead, hc⟩
  · rw [applied, applied, hlog] at happlied
    simp at happlied
  · have hof : x.of = i := by
      rw [applied, applied, hlog, List.map_append] at happlied
      simpa using happlied
    rw [hof, hraw] at hraw'
    cases hraw'
    cases Event.commits_of_leads hlead with
    | claimRevenue => exact RevenueClaim.pays_apply hs hc

/-- The step that closes an entry applies a claim. -/
theorem Sound.claims {k : String} (hl : l₀.Keyed) (h : t.Sound verify raws l₀)
    (hs : t.ledgers.SingleOpen) (hstep : Step verify t t') (hk : Closes k t t') :
    ∃ i o p, (raws i).normalize = .ok (some ⟨o, .claimRevenue p⟩) ∧
      t'.applied = t.applied ++ [i] := by
  rcases h.step_cases hstep with ⟨hledgers, -⟩ | ⟨x, ⟨o, _⟩, c, fx, hlog, hraw, hlead, hc⟩
  · exact absurd (hledgers ▸ hk.2) hk.1
  · have hkeyed := (h.yields.follows hl).keyed hl
    obtain ⟨p, rfl⟩ := Event.Changes.claims hkeyed hs
      ⟨c, Event.commits_of_leads hlead, hc⟩ hk.1 hk.2
    exact ⟨x.of, o, p, hraw, by rw [applied, applied, hlog, List.map_append, List.map_singleton]⟩

/-- **Claims pay each entry once, and exactly what was asked for**, in any run
from ledgers with at most one open entry of an account, and every document
under its own key (`Seed.keyed_ledgers`). -/
theorem payouts_of_run (hl : l₀.Keyed) (hs : l₀.SingleOpen) (h : Run settings raws l₀ t) :
    Payouts settings raws l₀ t where
  paid i o p hraw hi := by
    obtain ⟨u, u', hu, hstep, hu', happlied⟩ := h.exists_step hi
    obtain ⟨request, item, hrequest, hitem, hpays⟩ :=
      (hu.sound hl).pays (hu.singleOpen hl hs) hstep hraw happlied
    exact ⟨u, u', request, item, hu, hstep, hu', happlied, hrequest, hitem, hpays⟩
  once u u' k hu hstep _ hk := by
    refine ⟨(hu.sound hl).claims hl (hu.singleOpen hl hs) hstep hk, fun v v' hv _ hk' => ?_⟩
    -- What is withdrawn is still there later, as it was.
    obtain ⟨entry, hentry, hwithdrawn⟩ := hk.2
    obtain ⟨entry', hentry', hkeeps⟩ :=
      (history_of_run hl hs (hu.tail hstep) hv).still k entry hentry
    rw [hkeeps.withdrawn hwithdrawn] at hentry'
    exact hk'.1 ⟨entry, hentry', hwithdrawn⟩

theorem payouts_approveAndClaim :
    ∃ t, Run ⟨false, 1⟩ approveAndClaim sampleLedgers t ∧ t.applied = [true, false] ∧
      Payouts ⟨false, 1⟩ approveAndClaim sampleLedgers t := by
  obtain ⟨t, hrun, happlied⟩ := run_approveAndClaim
  exact ⟨t, hrun, happlied, payouts_of_run keyed_sampleLedgers singleOpen_sampleLedgers hrun⟩

end Traffic

/-! ## Marks -/

/-- **What a claim marks is backed** where one item of the request at most is
of its currency: all that a marked item covers was paid out, nothing else was,
and it adds up to what the marked items ask for. -/
theorem Host.Quiet.backed {σ : Type} {h : Host σ} (hq : h.Quiet) {settings : DispatchSettings}
    {raw : InboundEvent} {o : Origin} {p : RevenueClaim} {s : σ} {n failed : Nat}
    (hraw : raw.normalize = .ok (some ⟨o, .claimRevenue p⟩))
    (happlied : (h.dispatch settings raw s).1 = .applied n failed)
    (hone : ∀ request, (h.ledgers s).withdrawals.get? p.requestId = some request →
      (request.items.filter (·.currency = p.currency)).length ≤ 1) :
    ∃ request request', (h.ledgers s).withdrawals.get? p.requestId = some request ∧
      (h.ledgers (h.dispatch settings raw s).2).withdrawals.get? p.requestId = some request' ∧
      RevenueClaim.Backs request (RevenueClaim.marked request request') (h.ledgers s)
        (h.ledgers (h.dispatch settings raw s).2) := by
  obtain ⟨e, clock, fx, hraw', c, hcommits, hc⟩ := hq.changes_of_applied happlied
  rw [hraw] at hraw'
  cases hraw'
  cases hcommits with
  | claimRevenue => exact RevenueClaim.backs_apply hc hone

/-! ## Two items of one currency -/

/-- A number of units, as a decimal. -/
def units (n : Int) : Decimal := (Decimal.ofParts? n 0).getD .zero

/-- An item that asks for the revenue of one offering. -/
def askFor (offering : String) (amount : Decimal) : WithdrawalItem :=
  ⟨default, [offering], amount, none⟩

/-- Ten units of one offering and twenty of another are owed to the owner, who
requests some items. -/
def requested (items : List WithdrawalItem) : Ledgers :=
  Seed.ledgers
    { revenue :=
        [⟨"first", "owner", "offering", units 10, default, .hundred, false, .epoch⟩,
         ⟨"second", "owner", "other", units 20, default, .hundred, false, .epoch⟩]
      withdrawals := [⟨"request", "owner", .requesting, items, default, .epoch⟩] }

/-- A request for the ten units. -/
def single : Ledgers := requested [askFor "offering" (units 10)]

/-- A request for both, one by one, in the same currency. -/
def doubled : Ledgers := requested [askFor "offering" (units 10), askFor "other" (units 20)]

/-- The claim of the currency, dispatched from some ledgers. -/
def claimed (l : Ledgers) : Report × Rerun :=
  (Rerun.host fun _ => true).dispatch ⟨false, 1⟩ (Traffic.approveAndClaim false) ⟨l, [], []⟩

theorem backed_single :
    (claimed single).1 = .applied 2 0 ∧
      ∃ request request', single.withdrawals.get? "request" = some request ∧
        (claimed single).2.ledgers.withdrawals.get? "request" = some request' ∧
        RevenueClaim.Backs request (RevenueClaim.marked request request') single
          (claimed single).2.ledgers := by
  have happlied : (claimed single).1 = .applied 2 0 := by with_unfolding_all rfl
  have hraw : (Traffic.approveAndClaim false).normalize =
      .ok (some ⟨⟨"claim", 1, default, some "0x02"⟩, .claimRevenue ⟨"request", default⟩⟩) := by
    with_unfolding_all rfl
  have hrequest : single.withdrawals.get? "request" =
      some ⟨"request", "owner", .requesting, [askFor "offering" (units 10)], default, .epoch⟩ := by
    decide +kernel
  refine ⟨happlied, (Rerun.quiet_host fun _ => true).backed hraw happlied fun request h => ?_⟩
  obtain rfl := Option.some.inj (hrequest.symm.trans h)
  decide

/-- **A mark that is not backed.** Where a request asks twice for one currency,
the claim is applied and marks both items, but what the second one covers is
still open. -/
theorem doubled_not_backed :
    (claimed doubled).1 = .applied 2 0 ∧
      ¬ ∃ request request', doubled.withdrawals.get? "request" = some request ∧
        (claimed doubled).2.ledgers.withdrawals.get? "request" = some request' ∧
        RevenueClaim.Backs request (RevenueClaim.marked request request') doubled
          (claimed doubled).2.ledgers := by
  refine ⟨by with_unfolding_all rfl, ?_⟩
  rintro ⟨request, request', hrequest, hrequest', hbacks⟩
  have hmarked : (do
      let r ← doubled.withdrawals.get? "request"
      let r' ← (claimed doubled).2.ledgers.withdrawals.get? "request"
      return (RevenueClaim.marked r r').flatMap (·.accounts r.beneficiaryId)) =
        some [⟨"owner", "offering", default⟩, ⟨"owner", "other", default⟩] := by
    decide +kernel
  simp only [hrequest, hrequest', Option.bind_eq_bind, Option.bind_some, Option.pure_def,
    Option.some.injEq] at hmarked
  have hbefore : doubled.revenue.get? "second" =
      some ⟨"second", "owner", "other", units 20, default, .hundred, false, .epoch⟩ := by
    decide +kernel
  have hafter : (claimed doubled).2.ledgers.revenue.get? "second" =
      doubled.revenue.get? "second" := by
    decide +kernel
  have hclosed := hbacks.shuts "second"
  rw [hafter, hbefore, hmarked] at hclosed
  cases hclosed with
  | some h =>
    rw [if_pos (by decide)] at h
    obtain ⟨t, -, h⟩ := h
    cases congrArg RevenueEntry.isWithdrawn h

end ChainLedger
