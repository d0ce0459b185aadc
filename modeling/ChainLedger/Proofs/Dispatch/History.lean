import ChainLedger.Proofs.Dispatch.Accounting
import ChainLedger.Proofs.Transition.History

/-!
# The history of the revenue ledger

Between any two moments of a run (`History`) no revenue entry is lost, every
one keeps its account and its rate, no balance falls, and what is withdrawn
stays as it is. An entry that came in was opened by one step, the commit of
an approval, at the rate that this approval was told.

A step says all of this of itself (`Sound.remembers`); the history is put
together from its steps, and the step that opened an entry is the one that
the entry is not there before.
-/

namespace ChainLedger.Traffic

open Relation (ReflTransGen)

variable {ι : Type} [DecidableEq ι] {settings : DispatchSettings} {raws : ι → InboundEvent}
  {l₀ : Ledgers} {verify : Bool} {t t' t'' : Traffic ι}

/-! ## One step -/

/-- A step that commits an event which opens an entry of an account, at a
rate. -/
def Approves (raws : ι → InboundEvent) (t t' : Traffic ι) (a : Account) (rate : Decimal) : Prop :=
  ∃ x e, t'.log = t.log ++ [x] ∧ (raws x.of).normalize = .ok (some e) ∧ e.Opens x.told a rate

/-- **Every step remembers the revenue**, and keeps at most one entry of an
account open. -/
theorem Sound.remembers (hl : l₀.Keyed) (h : t.Sound verify raws l₀) (hs : t.ledgers.SingleOpen)
    (hstep : Step verify t t') :
    t'.ledgers.SingleOpen ∧ t.ledgers.Remembers (Approves raws t t') t'.ledgers := by
  rcases h.step_cases hstep with ⟨hledgers, -⟩ | ⟨x, e, c, fx, hlog, hraw, hlead, hc⟩
  · rw [hledgers]
    exact ⟨hs, .of_revenue_eq rfl⟩
  · have hkeyed := (h.yields.follows hl).keyed hl
    obtain ⟨hs', hremembers⟩ := Event.remembers_of_leads hkeyed hs hlead hc
    exact ⟨hs', hremembers.imp fun a r hopens => ⟨x, e, hlog, hraw, hopens⟩⟩

/-! ## Any number of steps -/

/-- **An entry was opened by a step**: it was not there before, it was there
afterwards, and the step commits an approval of its offering that was told its
rate. -/
structure OpenedAt (raws : ι → InboundEvent) (k : String) (entry : RevenueEntry)
    (u u' : Traffic ι) : Prop where
  before : u.ledgers.revenue.get? k = none
  after : ∃ e, u'.ledgers.revenue.get? k = some e
  approval : Approves raws u u' entry.account entry.rateAtApproval

/-- **The history of the revenue** from one moment to a later one. -/
structure History (verify : Bool) (raws : ι → InboundEvent) (t t' : Traffic ι) : Prop where
  /-- At most one entry of an account is open. -/
  single : t'.ledgers.SingleOpen
  /-- Every entry is still there and keeps what entries keep. -/
  still : ∀ k e, t.ledgers.revenue.get? k = some e →
    ∃ e', t'.ledgers.revenue.get? k = some e' ∧ e.Keeps e'
  /-- An entry that came in was opened by a step in between. -/
  opened : ∀ k e, t.ledgers.revenue.get? k = none → t'.ledgers.revenue.get? k = some e →
    ∃ u u', ReflTransGen (Step verify) t u ∧ Step verify u u' ∧
      ReflTransGen (Step verify) u' t' ∧ OpenedAt raws k e u u'

namespace History

theorem refl (hs : t.ledgers.SingleOpen) : History verify raws t t where
  single := hs
  still k e he := ⟨e, he, .refl e⟩
  opened k e hk he := by
    rw [hk] at he
    cases he

/-- **One more step** of a history. -/
theorem snoc (hl : l₀.Keyed) (h : History verify raws t t') (hsteps : ReflTransGen (Step verify) t t')
    (hsound : t'.Sound verify raws l₀) (hstep : Step verify t' t'') : History verify raws t t'' := by
  obtain ⟨hs, hremembers⟩ := hsound.remembers hl h.single hstep
  refine ⟨hs, Collection.Extends.trans RevenueEntry.Keeps.trans h.still hremembers.still,
    fun k e hk he => ?_⟩
  cases hmid : t'.ledgers.revenue.get? k with
  | none =>
    exact ⟨t', t'', hsteps, hstep, .refl, hmid, ⟨e, he⟩, hremembers.opened k e hmid he⟩
  | some e' =>
    -- It was opened before this step, and its account and its rate are what they were.
    obtain ⟨u, u', hu, huu', hu', hopened⟩ := h.opened k e' hk hmid
    obtain ⟨e'', he'', hkeeps⟩ := hremembers.still k e' hmid
    obtain rfl := Option.some.inj (he.symm.trans he'')
    refine ⟨u, u', hu, huu', hu'.tail hstep, hopened.before, hopened.after, ?_⟩
    rw [hkeeps.account, hkeeps.rate]
    exact hopened.approval

end History

/-- From any moment, as long as the invariant holds and at most one entry of
an account is open there. -/
theorem Sound.history (hl : l₀.Keyed) (h : t.Sound verify raws l₀) (hs : t.ledgers.SingleOpen)
    (hsteps : ReflTransGen (Step verify) t t') : History verify raws t t' := by
  induction hsteps with
  | refl => exact .refl hs
  | tail hsteps hstep ih => exact ih.snoc hl hsteps (h.steps hl hsteps) hstep

/-- At most one entry of an account is open at every moment of a run. -/
theorem Run.singleOpen (hl : l₀.Keyed) (hs : l₀.SingleOpen) (h : Run settings raws l₀ t) :
    t.ledgers.SingleOpen :=
  (sound_start.history hl hs h).single

/-- **The discipline of the revenue ledger**, between any two moments of any
run. The ledgers it starts from have every document under its own key
(`Seed.keyed_ledgers`). -/
theorem history_of_run (hl : l₀.Keyed) (hs : l₀.SingleOpen) (h : Run settings raws l₀ t)
    (hsteps : ReflTransGen (Step settings.verifyReceipts) t t') :
    History settings.verifyReceipts raws t t' :=
  (h.sound hl).history hl (h.singleOpen hl hs) hsteps

/-- No entry is open in ledgers without revenue. -/
theorem singleOpen_sampleLedgers : sampleLedgers.SingleOpen := by
  intro k _ e _ hk
  rw [show sampleLedgers.revenue.get? k = none from rfl] at hk
  cases hk

/-- An approval, and the claim of what it credited, are both applied. -/
theorem run_approveAndClaim :
    ∃ t, Run ⟨false, 1⟩ approveAndClaim sampleLedgers t ∧ t.applied = [true, false] := by
  obtain ⟨t, hrun, happlied⟩ :=
    @Host.Quiet.run_of_reports _ _ _ _ approveAndClaim ⟨false, 1⟩
      ⟨sampleLedgers, [⟨.rate 1 default, Except.ok Decimal.hundred⟩], []⟩
      (Rerun.quiet_host fun _ => true) [true, false] (by decide) (fun _ => true)
      (by decide +kernel)
  exact ⟨t, hrun, happlied⟩

theorem history_approveAndClaim :
    ∃ t, Run ⟨false, 1⟩ approveAndClaim sampleLedgers t ∧ t.applied = [true, false] ∧
      History false approveAndClaim (start ⟨false, 1⟩ approveAndClaim sampleLedgers) t := by
  obtain ⟨t, hrun, happlied⟩ := run_approveAndClaim
  exact ⟨t, hrun, happlied,
    history_of_run keyed_sampleLedgers singleOpen_sampleLedgers .refl hrun⟩

end ChainLedger.Traffic
