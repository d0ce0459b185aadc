import ChainLedger.Proofs.Dispatch.Moment
import ChainLedger.Proofs.Dispatch.Sequence
import ChainLedger.Proofs.Transition.Lifecycle

/-!
# Statuses take the edges they may take

Every step of every run leaves the ledgers as they are, or takes the edges
that the kind of its event may take. Approvals and rejections of revenue start
from what is pending and are for good, so no offering has one of each.
`Edged` collects this.
-/

namespace ChainLedger.Traffic

variable {ι : Type} [DecidableEq ι] {settings : DispatchSettings} {raws : ι → InboundEvent}
  {l₀ : Ledgers} {verify : Bool} {t t' : Traffic ι}

/-- **The edges of a run** up to some moment. -/
structure Edged (settings : DispatchSettings) (raws : ι → InboundEvent) (l₀ : Ledgers)
    (t : Traffic ι) : Prop where
  /-- A step leaves the ledgers as they are, or its event takes edges. -/
  edges : ∀ u u', Passes settings.verifyReceipts (start settings raws l₀) u u' t →
    u'.ledgers = u.ledgers ∨
      ∃ i e, Applies settings.verifyReceipts raws i e u u' ∧ e.Edges u.ledgers u'.ledgers
  /-- No offering has both an approval and a rejection that were applied. -/
  decided : ∀ i j o o' p q, (raws i).normalize = .ok (some ⟨o, .approveRevenue p⟩) →
    (raws j).normalize = .ok (some ⟨o', .rejectRevenue q⟩) → i ∈ t.applied → j ∈ t.applied →
    p.offeringId ≠ q.offeringId

omit [DecidableEq ι] in
/-- The event that a step applies takes the edges that its kind may take. -/
theorem Sound.edges {i : ι} {e : Event} (hl : l₀.Keyed) (h : t.Sound verify raws l₀)
    (happlies : Applies verify raws i e t t') : e.Edges t.ledgers t'.ledgers := by
  obtain ⟨clock, fx, hchanges⟩ := happlies.changes
  exact hchanges.edges (h.keyed hl)

/-- **Statuses take the edges they may take**, in any run from ledgers with
every document under its own key (`Seed.keyed_ledgers`). -/
theorem edged_of_run (hl : l₀.Keyed) (h : Run settings raws l₀ t) : Edged settings raws l₀ t where
  edges u u' hpasses := by
    have hsound := sound_start.steps hl hpasses.before
    rcases hsound.step_or_applies hpasses.step with ⟨hledgers, -⟩ | ⟨i, e, happlies⟩
    · exact .inl hledgers
    · exact .inr ⟨i, e, happlies, hsound.edges hl happlies⟩
  decided i j o o' p q hp hq hi hj heq := by
    obtain ⟨a, ha, happroved⟩ := sound_start.holds_of_applied hl h List.not_mem_nil hi hp
      (P := fun l => l.offerings.Holds p.offeringId (·.revenue.status = .approved))
      (fun hkeyed hchanges => by
        obtain ⟨w, hw, hbetween⟩ := hchanges.writes hkeyed
        exact Payload.Writes.approved hw hbetween)
      (fun hfollows ho => hfollows.finalized nofun ho)
    obtain ⟨b, hb, hrejected⟩ := sound_start.holds_of_applied hl h List.not_mem_nil hj hq
      (P := fun l => l.offerings.Holds q.offeringId (·.revenue.status = .rejected))
      (fun hkeyed hchanges => by
        obtain ⟨w, hw, hbetween⟩ := hchanges.writes hkeyed
        exact Payload.Writes.rejected hw hbetween)
      (fun hfollows ho => hfollows.finalized nofun ho)
    rw [heq, hb] at ha
    cases ha
    rw [happroved] at hrejected
    cases hrejected

/-- A draft is minted, its token redeemed, the fractional token deactivated,
and its token redeemed once more. -/
def redeemTwice : Fin 4 → InboundEvent
  | 0 => sampleMinting
  | 2 => ⟨"record", "DeactivateFNFT", 1, default, none, .obj [("fnftId", .str "fnft")]⟩
  | _ => ⟨"record", "RedeemNFT", 1, default, none, .obj [("tokenId", .str "7")]⟩

/-- All four events are applied. -/
theorem run_redeemTwice :
    ∃ t, Run ⟨false, 1⟩ redeemTwice sampleDraft t ∧ t.applied = [0, 1, 2, 3] := by
  obtain ⟨t, hrun, happlied⟩ :=
    @Host.Quiet.run_of_reports _ _ _ _ redeemTwice ⟨false, 1⟩
      ⟨sampleDraft, [⟨.supply 1 default, Except.ok ((1000, 1) : Nat × Nat)⟩], []⟩
      (Rerun.quiet_host fun _ => true) [0, 1, 2, 3] (by decide) (fun _ => true)
      (by decide +kernel)
  exact ⟨t, hrun, happlied⟩

theorem edged_redeemTwice :
    ∃ t, Run ⟨false, 1⟩ redeemTwice sampleDraft t ∧ t.applied = [0, 1, 2, 3] ∧
      Edged ⟨false, 1⟩ redeemTwice sampleDraft t := by
  obtain ⟨t, hrun, happlied⟩ := run_redeemTwice
  exact ⟨t, hrun, happlied, edged_of_run keyed_sampleDraft hrun⟩

end ChainLedger.Traffic
