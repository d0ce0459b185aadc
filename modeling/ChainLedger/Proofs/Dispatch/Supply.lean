import ChainLedger.Proofs.Dispatch.Moment
import ChainLedger.Proofs.Dispatch.Settlement
import ChainLedger.Proofs.Transition.Supply

/-!
# Nothing is sold that is not there

In a run from ledgers whose supplies are within their bounds, supplies stay
within them. The supply of an offering is drawn on at most, from any moment to
any later one; so is that of a fractional token, except by the one step that
mints the draft; and a deposit that is applied asks for no more than there is
at the moment of its commit. `Supplied` collects this.
-/

namespace ChainLedger.Traffic

open Collection
open Relation (ReflTransGen)

variable {ι : Type} {settings : DispatchSettings} {raws : ι → InboundEvent} {l₀ : Ledgers}
  {verify : Bool} {t t' : Traffic ι}

/-- The event that a step applies draws on supplies at most, or mints a draft. -/
theorem Sound.draws {i : ι} {e : Event} (hl : l₀.Keyed) (h : t.Sound verify raws l₀)
    (happlies : Applies verify raws i e t t') : e.Draws t.ledgers t'.ledgers := by
  obtain ⟨clock, fx, hchanges⟩ := happlies.changes
  exact hchanges.draws (h.keyed hl)

variable [DecidableEq ι]

/-- **What became of supplies** in a run up to some moment. -/
structure Supplied (settings : DispatchSettings) (raws : ι → InboundEvent) (l₀ : Ledgers)
    (t : Traffic ι) : Prop where
  /-- They are within their bounds. -/
  within : t.ledgers.WithinSupply
  /-- Since any earlier moment, offerings were drawn on at most. -/
  offerings : ∀ u, Run settings raws l₀ u → ReflTransGen (Step settings.verifyReceipts) u t →
    Revises (fun a b => a.supply.Drawn b.supply) u.ledgers.offerings t.ledgers.offerings
  /-- At every step, fractional tokens were drawn on at most, except for a
  draft that the step minted. -/
  fnfts : ∀ u u', Passes settings.verifyReceipts (start settings raws l₀) u u' t →
    Revises
      (fun a b => a.supply.Drawn b.supply ∨
        ∃ i e, Applies settings.verifyReceipts raws i e u u' ∧ Fnft.MintedBy e.payload a b)
      u.ledgers.fnfts u'.ledgers.fnfts
  /-- A deposit that was applied drew no more than there was. -/
  covered : ∀ i o p, (raws i).normalize = .ok (some ⟨o, .deposit p⟩) → i ∈ t.applied →
    ∃ u u' offering fnft, Passes settings.verifyReceipts (start settings raws l₀) u u' t ∧
      Applies settings.verifyReceipts raws i ⟨o, .deposit p⟩ u u' ∧
      u.ledgers.offerings.get? p.offeringId = some offering ∧
      u.ledgers.fnfts.get? offering.fnftId = some fnft ∧
      p.amount.toRat ≤ offering.availableSupply.toRat ∧
      p.amount.toRat ≤ fnft.availableSupply.toRat

/-- Supplies that are within their bounds stay so. -/
theorem Sound.withinSupply (hl : l₀.Keyed) (h : t.Sound verify raws l₀)
    (hsteps : ReflTransGen (Step verify) t t') (hs : t.ledgers.WithinSupply) :
    t'.ledgers.WithinSupply := by
  refine h.keeps (P := Ledgers.WithinSupply) hl (fun hsound happlies hs => ?_) hsteps hs
  obtain ⟨told, c, clock, fx, hlead, hc⟩ := happlies.commits
  exact Event.withinSupply_of_leads (hsound.keyed hl) hs hlead hc

/-- From any moment to a later one, offerings are drawn on at most. -/
theorem Sound.offerings_drawn (hl : l₀.Keyed) (h : t.Sound verify raws l₀)
    (hsteps : ReflTransGen (Step verify) t t') :
    Revises (fun a b => a.supply.Drawn b.supply) t.ledgers.offerings t'.ledgers.offerings := by
  refine h.keeps
    (P := fun l => Revises (fun a b => a.supply.Drawn b.supply) t.ledgers.offerings l.offerings)
    hl (fun hsound happlies hrevises => ?_) hsteps (.refl fun a => .refl a.supply)
  exact hrevises.trans Supply.Drawn.trans (hsound.draws hl happlies).offerings

/-- **Supplies are within their bounds, and only ever drawn on**, in any run
from ledgers whose supplies are within their bounds, and every document under
its own key (`Seed.keyed_ledgers`). -/
theorem supplied_of_run (hl : l₀.Keyed) (hs : l₀.WithinSupply) (h : Run settings raws l₀ t) :
    Supplied settings raws l₀ t where
  within := sound_start.withinSupply hl h hs
  offerings u hu hsteps := (hu.sound hl).offerings_drawn hl hsteps
  fnfts u u' hpasses := by
    have hsound := sound_start.steps hl hpasses.before
    rcases hsound.step_or_applies hpasses.step with ⟨hledgers, -⟩ | ⟨i, e, happlies⟩
    · rw [hledgers]
      exact .refl fun a => .inl (.refl a.supply)
    · refine .of_rel fun k => ((hsound.draws hl happlies).fnfts.rel k).imp fun a b _ hab => ?_
      exact hab.imp_right fun hminted => ⟨i, e, happlies, hminted⟩
  covered i o p hraw hi := by
    obtain ⟨u, u', e, hpasses, hsound, happlies⟩ :=
      sound_start.exists_applies hl h List.not_mem_nil hi
    obtain rfl : ⟨o, .deposit p⟩ = e := by simpa [hraw] using happlies.normal
    obtain ⟨offering, fnft, hoffering, hfnft, hcovered⟩ := (hsound.draws hl happlies).covered p rfl
    exact ⟨u, u', offering, fnft, hpasses, happlies, hoffering, hfnft, hcovered⟩

/-- The minting of a fractional token, and then a deposit for it. -/
def mintAndSell : Bool → InboundEvent
  | true => sampleMinting
  | false => depositTwice false

/-- The draft has no supply yet, and all of the offering is available. -/
theorem withinSupply_sampleDraft : sampleDraft.WithinSupply := by
  constructor
  · intro k o ho
    have hmem : o ∈ [sampleOffering] := mem_toList.mpr ⟨k, ho⟩
    rw [List.mem_singleton.mp hmem]
    exact ⟨by decide +kernel, le_rfl⟩
  · intro k f hf
    have hmem : f ∈ [⟨"fnft", none, ["7"], .draft, .zero, .zero, .epoch⟩] :=
      mem_toList.mpr ⟨k, hf⟩
    rw [List.mem_singleton.mp hmem]
    exact ⟨by decide +kernel, le_rfl⟩

/-- The token is minted, and the deposit settled. -/
theorem run_mintAndSell :
    ∃ t, Run ⟨false, 1⟩ mintAndSell sampleDraft t ∧ t.applied = [true, false] := by
  obtain ⟨t, hrun, happlied⟩ :=
    @Host.Quiet.run_of_reports _ _ _ _ mintAndSell ⟨false, 1⟩
      ⟨sampleDraft, [⟨.supply 1 default, Except.ok ((1000, 1) : Nat × Nat)⟩], []⟩
      (Rerun.quiet_host fun _ => true) [true, false] (by decide) (fun _ => true)
      (by decide +kernel)
  exact ⟨t, hrun, happlied⟩

theorem supplied_mintAndSell :
    ∃ t, Run ⟨false, 1⟩ mintAndSell sampleDraft t ∧ t.applied = [true, false] ∧
      Supplied ⟨false, 1⟩ mintAndSell sampleDraft t := by
  obtain ⟨t, hrun, happlied⟩ := run_mintAndSell
  exact ⟨t, hrun, happlied, supplied_of_run keyed_sampleDraft withinSupply_sampleDraft hrun⟩

end ChainLedger.Traffic
