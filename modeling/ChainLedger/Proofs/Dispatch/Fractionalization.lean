import ChainLedger.Proofs.Dispatch.Moment
import ChainLedger.Proofs.Dispatch.Sequence
import ChainLedger.Proofs.Transition.Fractionalization

/-!
# Fractional tokens stay consistent

Where no two fractional tokens share a token or an asset, and all of them
agree with what is behind them (`Ledgers.Consistent`), they agree with it at
every moment of every run: in any order of mintings, mergings, deactivations
and redemptions, and whatever is missing.
-/

namespace ChainLedger.Traffic

open Collection
open Relation (ReflTransGen)

variable {ι : Type} [DecidableEq ι] {settings : DispatchSettings} {raws : ι → InboundEvent}
  {l₀ : Ledgers} {verify : Bool} {t t' : Traffic ι}

/-- Fractional tokens that are separate and consistent stay so. -/
theorem Sound.consistent (hl : l₀.Keyed) (h : t.Sound verify raws l₀)
    (hsteps : ReflTransGen (Step verify) t t') (hs : t.ledgers.Separate)
    (hc : t.ledgers.Consistent) : t'.ledgers.Separate ∧ t'.ledgers.Consistent := by
  refine h.keeps (P := fun l => l.Separate ∧ l.Consistent) hl ?_ hsteps ⟨hs, hc⟩
  rintro u u' i e hsound happlies ⟨hs, hc⟩
  obtain ⟨clock, fx, hchanges⟩ := happlies.changes
  have hkeyed := hsound.keyed hl
  exact ⟨(hchanges.follows hkeyed).separate hs, hchanges.consistent hkeyed hs hc⟩

/-- **Fractional tokens stay consistent** with what is behind them, in any run
from ledgers where they are separate and consistent, and every document under
its own key (`Seed.keyed_ledgers`). -/
theorem consistent_of_run (hl : l₀.Keyed) (hs : l₀.Separate) (hc : l₀.Consistent)
    (h : Run settings raws l₀ t) : t.ledgers.Consistent :=
  (sound_start.consistent hl h hs hc).2

/-- A draft is minted, its token is redeemed, and the fractional token is
merged. -/
def mintAndMerge : Fin 3 → InboundEvent
  | 0 => sampleMinting
  | 1 => ⟨"record", "RedeemNFT", 1, default, none, .obj [("tokenId", .str "7")]⟩
  | _ => ⟨"record", "MergeFNFT", 1, default, none, .obj [("fnftId", .str "fnft")]⟩

/-- There is one fractional token, a draft. -/
theorem draft_of_get?_sampleDraft {k : String} {f : Fnft} (hf : sampleDraft.fnfts.get? k = some f) :
    k = "fnft" ∧ f.status = .draft := by
  have hmem : f ∈ [⟨"fnft", none, ["7"], .draft, .zero, .zero, .epoch⟩] := mem_toList.mpr ⟨k, hf⟩
  obtain rfl := List.mem_singleton.mp hmem
  exact ⟨(keyed_sampleDraft.fnfts k _ hf).symm, rfl⟩

theorem separate_sampleDraft : sampleDraft.Separate where
  nfts hf hf' _ _ :=
    (draft_of_get?_sampleDraft hf).1.trans (draft_of_get?_sampleDraft hf').1.symm
  assets hf hf' _ _ :=
    (draft_of_get?_sampleDraft hf).1.trans (draft_of_get?_sampleDraft hf').1.symm

theorem consistent_sampleDraft : sampleDraft.Consistent where
  nfts hf hactive _ _ := nomatch (draft_of_get?_sampleDraft hf).2.symm.trans hactive
  assets hf hactive _ _ := nomatch (draft_of_get?_sampleDraft hf).2.symm.trans hactive
  merged hf hmerged _ _ := nomatch (draft_of_get?_sampleDraft hf).2.symm.trans hmerged

theorem consistent_mintAndMerge :
    ∃ t, Run ⟨false, 1⟩ mintAndMerge sampleDraft t ∧ t.applied = [0, 1, 2] ∧
      t.ledgers.Consistent := by
  obtain ⟨t, hrun, happlied⟩ :=
    @Host.Quiet.run_of_reports _ _ _ _ mintAndMerge ⟨false, 1⟩
      ⟨sampleDraft, [⟨.supply 1 default, Except.ok ((1000, 1) : Nat × Nat)⟩], []⟩
      (Rerun.quiet_host fun _ => true) [0, 1, 2] (by decide) (fun _ => true)
      (by decide +kernel)
  exact ⟨t, hrun, happlied, consistent_of_run keyed_sampleDraft separate_sampleDraft
    consistent_sampleDraft hrun⟩

end ChainLedger.Traffic
