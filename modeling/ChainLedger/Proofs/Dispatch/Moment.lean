import ChainLedger.Proofs.Dispatch.Traffic

/-!
# From one moment to a later one

The ledgers of a run change by the commits of events and by nothing else
(`Sound.step_or_applies`). So what holds of the ledgers at one moment, and only
some events undo, holds until one of them is applied (`Sound.lasts`), and for
ever if no event undoes it (`Sound.keeps`). An event that was applied by a later
moment, and not by the earlier one, was applied by a step in between
(`Sound.exists_applies`).
-/

namespace ChainLedger.Traffic

open Relation (ReflTransGen)

variable {ι : Type} {raws : ι → InboundEvent} {l₀ : Ledgers} {verify : Bool}
  {t t' u u' : Traffic ι} {i : ι} {e : Event}

/-! ## Events between moments -/

/-- **A step applies an event**, from the ledgers before it to those after it. -/
structure Applies (verify : Bool) (raws : ι → InboundEvent) (i : ι) (e : Event)
    (t t' : Traffic ι) : Prop where
  normal : (raws i).normalize = .ok (some e)
  applied : t'.applied = t.applied ++ [i]
  commits : ∃ told c clock fx, (e.attempt verify t.ledgers).Leads told (.commit c) ∧
    c clock t.ledgers = .ok (t'.ledgers, fx)

/-- The event changes the ledgers as its kind does. -/
theorem Applies.changes (h : Applies verify raws i e t t') :
    ∃ clock fx, e.Changes clock t.ledgers t'.ledgers fx := by
  obtain ⟨told, c, clock, fx, hlead, hc⟩ := h.commits
  exact ⟨clock, fx, c, Event.commits_of_leads hlead, hc⟩

/-- Documents are under their own keys at every moment. -/
theorem Sound.keyed (hl : l₀.Keyed) (h : t.Sound verify raws l₀) : t.ledgers.Keyed :=
  (h.yields.follows hl).keyed hl

variable [DecidableEq ι]

/-- A step is passed on the way from one moment to a later one. -/
structure Passes (verify : Bool) (t u u' t' : Traffic ι) : Prop where
  before : ReflTransGen (Step verify) t u
  step : Step verify u u'
  after : ReflTransGen (Step verify) u' t'

/-- The way from one moment to a later one may be longer. -/
theorem Passes.extend {s s' : Traffic ι} (h : Passes verify t u u' t')
    (hs : ReflTransGen (Step verify) s t) (hs' : ReflTransGen (Step verify) t' s') :
    Passes verify s u u' s' :=
  ⟨hs.trans h.before, h.step, h.after.trans hs'⟩

/-- **What no longer holds** stopped to hold with a step in between. -/
theorem exists_passes {P : Traffic ι → Prop} (hsteps : ReflTransGen (Step verify) t t')
    (ht : P t) (ht' : ¬ P t') : ∃ u u', Passes verify t u u' t' ∧ P u ∧ ¬ P u' := by
  induction hsteps with
  | refl => exact absurd ht ht'
  | @tail u u' hbefore hstep ih =>
    by_cases hu : P u
    · exact ⟨u, u', ⟨hbefore, hstep, .refl⟩, hu, ht'⟩
    · obtain ⟨v, v', hv, hstop⟩ := ih hu
      exact ⟨v, v', hv.extend .refl (.single hstep), hstop⟩

/-- **A step leaves the ledgers** and what was applied as they are, or applies
an event. -/
theorem Sound.step_or_applies (h : t.Sound verify raws l₀) (hstep : Step verify t t') :
    (t'.ledgers = t.ledgers ∧ t'.applied = t.applied) ∨ ∃ i e, Applies verify raws i e t t' := by
  rcases h.step_cases hstep with ⟨hledgers, hlog⟩ | ⟨x, e, c, fx, hlog, hraw, hlead, hc⟩
  · exact .inl ⟨hledgers, by rw [applied, hlog, applied]⟩
  · refine .inr ⟨x.of, e, hraw, ?_, x.told, c, x.clock, fx, hlead, hc⟩
    rw [applied, hlog, List.map_append, List.map_singleton, applied]

/-! ## What events keep -/

/-- **What only some events undo**, those of `U`, holds until one of them is
applied. -/
theorem Sound.lasts {P : Ledgers → Prop} {U : Event → Ledgers → Prop} (hl : l₀.Keyed)
    (h : t.Sound verify raws l₀)
    (hP : ∀ {u u' i e}, u.Sound verify raws l₀ → Applies verify raws i e u u' →
      ¬ U e u.ledgers → P u.ledgers → P u'.ledgers)
    (hsteps : ReflTransGen (Step verify) t t') (ht : P t.ledgers) :
    P t'.ledgers ∨ ∃ u u', Passes verify t u u' t' ∧
      ∃ i e, Applies verify raws i e u u' ∧ U e u.ledgers := by
  by_cases ht' : P t'.ledgers
  · exact .inl ht'
  · obtain ⟨u, u', hpasses, hu, hu'⟩ := exists_passes (P := fun t => P t.ledgers) hsteps ht ht'
    have hsound := h.steps hl hpasses.before
    rcases hsound.step_or_applies hpasses.step with ⟨hledgers, -⟩ | ⟨i, e, happlies⟩
    · exact absurd (hledgers ▸ hu) hu'
    · refine .inr ⟨u, u', hpasses, i, e, happlies, ?_⟩
      by_contra hnot
      exact hu' (hP hsound happlies hnot hu)

/-- **What no event undoes** holds from then on. -/
theorem Sound.keeps {P : Ledgers → Prop} (hl : l₀.Keyed) (h : t.Sound verify raws l₀)
    (hP : ∀ {u u' i e}, u.Sound verify raws l₀ → Applies verify raws i e u u' →
      P u.ledgers → P u'.ledgers)
    (hsteps : ReflTransGen (Step verify) t t') (ht : P t.ledgers) : P t'.ledgers := by
  have hlasts := h.lasts (U := fun _ _ => False) hl
    (fun hsound happlies _ => hP hsound happlies) hsteps ht
  exact hlasts.resolve_right fun ⟨_, _, _, _, _, _, hundoes⟩ => hundoes

/-- The ledgers of a later moment are later ones. -/
theorem Sound.follows (hl : l₀.Keyed) (h : t.Sound verify raws l₀)
    (hsteps : ReflTransGen (Step verify) t t') : t.ledgers.Follows t'.ledgers := by
  refine h.keeps (P := t.ledgers.Follows) hl (fun hsound happlies hu => ?_) hsteps (.refl _)
  obtain ⟨clock, fx, hchanges⟩ := happlies.changes
  exact hu.trans (hchanges.follows (hsound.keyed hl))

/-! ## Which event was applied -/

/-- An event that was applied stays applied. -/
theorem Sound.mem_applied_of_steps (hl : l₀.Keyed) (h : t.Sound verify raws l₀)
    (hsteps : ReflTransGen (Step verify) t t') (hi : i ∈ t.applied) : i ∈ t'.applied := by
  by_contra hi'
  obtain ⟨u, u', hpasses, hu, hu'⟩ := exists_passes (P := fun t => i ∈ t.applied) hsteps hi hi'
  rcases (h.steps hl hpasses.before).step_or_applies hpasses.step with
    ⟨-, happlied⟩ | ⟨j, e, happlies⟩
  · exact hu' (happlied ▸ hu)
  · exact hu' (happlies.applied ▸ List.mem_append_left _ hu)

/-- An event that was applied by a later moment was applied by a step in
between. -/
theorem Sound.exists_applies (hl : l₀.Keyed) (h : t.Sound verify raws l₀)
    (hsteps : ReflTransGen (Step verify) t t') (hi : i ∉ t.applied) (hi' : i ∈ t'.applied) :
    ∃ u u' e, Passes verify t u u' t' ∧ u.Sound verify raws l₀ ∧ Applies verify raws i e u u' := by
  obtain ⟨u, u', hpasses, hu, hu'⟩ :=
    exists_passes (P := fun t => i ∉ t.applied) hsteps hi (not_not.mpr hi')
  have hsound := h.steps hl hpasses.before
  rcases hsound.step_or_applies hpasses.step with ⟨-, happlied⟩ | ⟨j, e, happlies⟩
  · exact absurd (happlied ▸ hu) hu'
  · have hij : i = j := by
      rw [not_not, happlies.applied, List.mem_append, List.mem_singleton] at hu'
      exact hu'.resolve_left hu
    exact ⟨u, u', e, hpasses, hsound, hij ▸ happlies⟩

/-- **What an event that was applied left** holds from then on, if nothing
that follows undoes it. -/
theorem Sound.holds_of_applied {P : Ledgers → Prop} (hl : l₀.Keyed)
    (h : t.Sound verify raws l₀) (hsteps : ReflTransGen (Step verify) t t') (hi : i ∉ t.applied)
    (hi' : i ∈ t'.applied) (hraw : (raws i).normalize = .ok (some e))
    (hleaves : ∀ {clock l l' fx}, l.Keyed → e.Changes clock l l' fx → P l')
    (hkeeps : ∀ {l l'}, l.Follows l' → P l → P l') : P t'.ledgers := by
  obtain ⟨u, u', e', hpasses, hsound, happlies⟩ := h.exists_applies hl hsteps hi hi'
  obtain rfl : e = e' := by simpa [hraw] using happlies.normal
  obtain ⟨clock, fx, hchanges⟩ := happlies.changes
  have hfollows := (hsound.step hl hpasses.step).follows hl hpasses.after
  exact hkeeps hfollows (hleaves (hsound.keyed hl) hchanges)

/-! ## A fractional token to start from -/

/-- A token that was minted, the draft of a fractional token that lists it, and
an offering of that. -/
def sampleDraft : Ledgers :=
  Seed.ledgers
    { assets := [⟨"asset", "owner", .convertedToNft, .fractor, .epoch⟩]
      nfts := [⟨"7", "asset", .minted, none, none, .epoch⟩]
      fnfts := [⟨"fnft", none, ["7"], .draft, .zero, .zero, .epoch⟩]
      offerings := [sampleOffering] }

theorem keyed_sampleDraft : sampleDraft.Keyed := Seed.keyed_ledgers _

/-- The minting of the draft. -/
def sampleMinting : InboundEvent :=
  ⟨"minting", "MintFNFT", 1, default, none, .obj
    [("fnftId", .str "fnft"),
      ("tokenAddress", .str "0x0000000000000000000000000000000000000000")]⟩

end ChainLedger.Traffic
