import ChainLedger.Proofs.Dispatch.Supply
import ChainLedger.Proofs.Ledger.Schedule
import ChainLedger.Proofs.Ledger.Stage

/-!
# Offerings only go forward

An offering whose supply is within its bounds has a stage at every instant,
which never goes back as time goes on (`Offering.Progresses`). No event writes
to a schedule, and supplies stay within their bounds; so over any run, too, no
offering is at an earlier stage at a later moment (`Traffic.stages_progress`).
Whether enough is sold may change with every deposit, but that decides between
the two endings only.
-/

namespace ChainLedger

namespace Offering

variable {o a b : Offering}

/-- **A later state of an offering** is never at an earlier stage: at every two
instants in order both have a stage, and the rank of the second is no less. -/
def Advances (a b : Offering) : Prop :=
  ∀ now now', now ≤ now' → ∃ s s', a.stage now = .ok s ∧ b.stage now' = .ok s' ∧ s.rank ≤ s'.rank

/-- **An offering goes forward** through its stages as time goes on. -/
structure Progresses (o : Offering) : Prop where
  /-- It is never at an earlier stage. -/
  advances : o.Advances o
  /-- An ending is for good. -/
  final : ∀ now now' s, now ≤ now' → o.stage now = .ok s → s.IsEnding → o.stage now' = .ok s
  /-- With its boundaries in order, it is at every other stage exactly on its
  window. -/
  windows : o.schedule.InOrder → ∀ now s, ¬ s.IsEnding →
    (o.stage now = .ok s ↔ o.schedule.Window now s)

/-- Of one schedule, no later instant is at an earlier stage, whatever is sold
and whatever its vault asks for. -/
theorem Advances.of_schedule (ha : a.supply.Within) (hb : b.supply.Within)
    (h : b.schedule = a.schedule) : a.Advances b := by
  intro now now' hle
  obtain ⟨enough, hstage⟩ := exists_enough ha.nonneg ha.le_total
  obtain ⟨enough', hstage'⟩ := exists_enough hb.nonneg hb.le_total
  exact ⟨_, _, hstage now, hstage' now', h ▸ Schedule.rank_stage_mono hle⟩

/-- **An offering whose supply is within its bounds goes forward.** -/
theorem progresses (h : o.supply.Within) : o.Progresses where
  advances := .of_schedule h h rfl
  final now now' s hle hs hending := by
    obtain ⟨enough, hstage⟩ := exists_enough h.nonneg h.le_total
    obtain rfl := Except.ok.inj ((hstage now).symm.trans hs)
    rw [hstage now', Schedule.stage_of_isEnding hle hending]
  windows horder now s hs := by
    obtain ⟨enough, hstage⟩ := exists_enough h.nonneg h.le_total
    rw [hstage now, Except.ok.injEq, Schedule.stage_eq_iff horder hs]

/-- No event changes a schedule. -/
theorem Becomes.schedule_eq (h : a.Becomes b) : b.schedule = a.schedule := by
  show b.terms.schedule = a.terms.schedule
  rw [h.terms]

end Offering

namespace Traffic

open Collection
open Relation (ReflTransGen)

variable {ι : Type} [DecidableEq ι] {settings : DispatchSettings} {raws : ι → InboundEvent}
  {l₀ : Ledgers} {verify : Bool} {t t' : Traffic ι}

/-- **From any moment to a later one**, no offering goes back whose supply is
within its bounds. -/
theorem Sound.advances (hl : l₀.Keyed) (h : t.Sound verify raws l₀)
    (hsteps : ReflTransGen (Step verify) t t') :
    Revises (fun a b => a.supply.Within → a.Advances b) t.ledgers.offerings
      t'.ledgers.offerings := by
  have hlater := (h.follows hl hsteps).offerings
  have hdrawn := h.offerings_drawn hl hsteps
  refine ⟨fun k a ha => ?_, hlater.none⟩
  obtain ⟨b, hb, hab⟩ := hlater.still k a ha
  have hschedule : b.schedule = a.schedule := by
    rcases hab with rfl | ⟨-, hbecomes⟩
    · rfl
    · exact hbecomes.schedule_eq
  exact ⟨b, hb, fun hs => .of_schedule hs ((hdrawn.of_get? ha hb).within hs) hschedule⟩

/-- **Stages never go back.** Every offering whose supply is within its bounds
goes forward as time goes on. In any run from ledgers with such offerings, and
every document under its own key (`Seed.keyed_ledgers`), an offering is at no
earlier stage at a later moment, if the clock has not gone back in between. -/
theorem stages_progress :
    (∀ o : Offering, o.supply.Within → o.Progresses) ∧
      ∀ {ι : Type} [DecidableEq ι] (settings : DispatchSettings) (raws : ι → InboundEvent)
        (l₀ : Ledgers) (u t : Traffic ι), l₀.Keyed →
        (∀ k o, l₀.offerings.get? k = some o → o.supply.Within) → Run settings raws l₀ u →
        ReflTransGen (Step settings.verifyReceipts) u t →
        Revises Offering.Advances u.ledgers.offerings t.ledgers.offerings := by
  refine ⟨fun o h => Offering.progresses h, fun settings raws l₀ u t hl hs hrun hsteps => ?_⟩
  have hadvances := (hrun.sound hl).advances hl hsteps
  refine .of_rel fun k => (hadvances.rel k).imp fun a b ha hab => hab ?_
  -- The supply was within its bounds at the start, and was drawn on at most.
  obtain ⟨o, ho, hdrawn⟩ := (sound_start.offerings_drawn hl hrun).before ha
  exact hdrawn.within (hs k o ho)

/-- An offering that is on sale before its registration ends. -/
def overlapping : Offering :=
  { sampleOffering with
    registrationStart := { Instant.epoch with seconds := 10 }
    registrationEnd := { Instant.epoch with seconds := 30 }
    participationStart := { Instant.epoch with seconds := 20 }
    participationEnd := { Instant.epoch with seconds := 40 } }

/-- An offering whose windows overlap goes forward; so does the one of which
some is sold. -/
theorem stages_progress_mintAndSell :
    overlapping.Progresses ∧ ∃ t, Run ⟨false, 1⟩ mintAndSell sampleDraft t ∧
      t.applied = [true, false] ∧
      Revises Offering.Advances sampleDraft.offerings t.ledgers.offerings := by
  obtain ⟨t, hrun, happlied⟩ := run_mintAndSell
  refine ⟨stages_progress.1 overlapping ⟨by decide +kernel, le_rfl⟩, t, hrun, happlied, ?_⟩
  exact stages_progress.2 _ _ _ (start _ _ _) t keyed_sampleDraft
    withinSupply_sampleDraft.offerings .refl hrun

end Traffic

end ChainLedger
