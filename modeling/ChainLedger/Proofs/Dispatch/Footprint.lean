import ChainLedger.Proofs.Dispatch.Supply
import ChainLedger.Proofs.Transition.Footprint

/-!
# Every step keeps within the footprint of its event

In a run from ledgers with every document under its own key, each step leaves
the ledgers as they are, or it applies an event and writes what the footprint
of that event names, as computed from the ledgers right before: no other
document changes, not even in its watermark, none is removed, and every
document is under its own key again (`Contained`).
-/

namespace ChainLedger.Traffic

variable {ι : Type} {settings : DispatchSettings} {raws : ι → InboundEvent} {l₀ : Ledgers}
  {verify : Bool} {t t' : Traffic ι}

/-- The event that a step applies keeps within its footprint. -/
theorem Sound.framed {i : ι} {e : Event} (hl : l₀.Keyed) (h : t.Sound verify raws l₀)
    (happlies : Applies verify raws i e t t') :
    t.ledgers.Framed (e.footprint t.ledgers) t'.ledgers := by
  obtain ⟨clock, fx, hchanges⟩ := happlies.changes
  exact hchanges.framed (h.keyed hl)

variable [DecidableEq ι]

/-- **What the steps of a run write**, up to some moment. -/
structure Contained (settings : DispatchSettings) (raws : ι → InboundEvent) (l₀ : Ledgers)
    (t : Traffic ι) : Prop where
  /-- Every document is under its own key. -/
  keyed : t.ledgers.Keyed
  /-- A step that applies no event writes nothing, and one that applies an
  event keeps within its footprint. -/
  framed : ∀ u u', Passes settings.verifyReceipts (start settings raws l₀) u u' t →
    (u'.ledgers = u.ledgers ∧ u'.applied = u.applied) ∨
      ∃ i e, Applies settings.verifyReceipts raws i e u u' ∧
        u.ledgers.Framed (e.footprint u.ledgers) u'.ledgers
  /-- And then again every document is under its own key. -/
  rekeyed : ∀ u u', Passes settings.verifyReceipts (start settings raws l₀) u u' t →
    u.ledgers.Keyed ∧ u'.ledgers.Keyed

/-- **Every step of a run keeps within the footprint of its event**, and every
document stays under its own key, from any ledgers that have them there. -/
theorem contained_of_run (hl : l₀.Keyed) (h : Run settings raws l₀ t) :
    Contained settings raws l₀ t where
  keyed := (h.sound hl).keyed hl
  framed u u' hpasses := by
    have hsound := sound_start.steps hl hpasses.before
    rcases hsound.step_or_applies hpasses.step with hsame | ⟨i, e, happlies⟩
    · exact .inl hsame
    · exact .inr ⟨i, e, happlies, hsound.framed hl happlies⟩
  rekeyed u u' hpasses := by
    have hsound := sound_start.steps hl hpasses.before
    exact ⟨hsound.keyed hl, (hsound.step hl hpasses.step).keyed hl⟩

theorem contained_mintAndSell :
    ∃ t, Run ⟨false, 1⟩ mintAndSell sampleDraft t ∧ t.applied = [true, false] ∧
      Contained ⟨false, 1⟩ mintAndSell sampleDraft t := by
  obtain ⟨t, hrun, happlied⟩ :=
    @Host.Quiet.run_of_reports _ _ _ _ mintAndSell ⟨false, 1⟩
      ⟨sampleDraft, [⟨.supply 1 default, Except.ok ((1000, 1) : Nat × Nat)⟩], []⟩
      (Rerun.quiet_host fun _ => true) [true, false] (by decide) (fun _ => true)
      (by decide +kernel)
  exact ⟨t, hrun, happlied, contained_of_run keyed_sampleDraft hrun⟩

end ChainLedger.Traffic
