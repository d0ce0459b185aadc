import ChainLedger.Proofs.Dispatch.Supply
import ChainLedger.Proofs.Transition.Overflow
import ChainLedger.Proofs.Transition.Range

/-!
# Arithmetic never stops a dispatch

In a run from ledgers whose supplies are within their bounds, no dispatch
ends with a trap of its own arithmetic: the operators whose results are taken
to exist have them. A balance that leaves the decimal range is a breach, which
ends its dispatch with a fatal failure, and every offering has a sold amount
and a stage at every moment. `InRange` collects this.
-/

namespace ChainLedger

/-- **A fatal refusal is reported at once**, whatever attempts were left. -/
theorem Flight.refused_of_isFatal {e : Event} {more : Nat} {r : Refusal} (h : r.isFatal = true) :
    refused e more r = .landed (.failed r) := by
  cases r with
  | breach fault => cases more <;> rfl
  | _ => cases h

/-- A dispatch that lands with a trap was refused with it. -/
theorem Flight.eq_trap_of_refused {e : Event} {more : Nat} {r : Refusal} {x : Trap}
    (h : refused e more r = .landed (.failed (.trap x))) : r = .trap x := by
  have hlanded (h : Flight.landed (.ofRefusal r) = .landed (.failed (.trap x))) :
      r = .trap x := by
    cases r <;> simp_all [Report.ofRefusal]
  unfold refused at h
  split at h
  · exact hlanded h
  · split at h
    · cases h
    · exact hlanded h

/-- **An offering has a sold amount and a stage** at every instant, if its
supply is within its bounds. -/
theorem Offering.exists_stage {o : Offering} (h : o.supply.Within) :
    (∃ sold, o.soldAmount = .ok sold) ∧ ∀ now, ∃ s, o.stage now = .ok s := by
  obtain ⟨sold, hsold, -⟩ := exists_sold h.nonneg h.le_total
  obtain ⟨enough, hstage⟩ := exists_enough h.nonneg h.le_total
  exact ⟨⟨sold, hsold⟩, fun now => ⟨_, hstage now⟩⟩

namespace Traffic

open Relation (ReflTransGen)

variable {ι : Type} {settings : DispatchSettings} {raws : ι → InboundEvent} {l₀ : Ledgers}
  {verify : Bool} {t t' : Traffic ι} {i : ι}

/-- No dispatch starts with a trap. -/
theorem flights_start_ne_trap (x : Trap) :
    (start settings raws l₀).flights i ≠ .landed (.failed (.trap x)) := by
  show Flight.start settings (raws i) ≠ _
  unfold Flight.start InboundEvent.normalize
  intro h
  split at h
  · next r hr =>
    split at hr
    · cases hr
    · split at hr
      · cases hr
      · cases hr
        cases h
  · cases h
  · cases h

variable [DecidableEq ι]

/-- **Where a trap comes from** that a step ends a dispatch with: it is the end
of the calendar, or it is one of the answers. -/
theorem Sound.trap_of_step {x : Trap} (h : t.Sound verify raws l₀) (hs : t.ledgers.WithinSupply)
    (hstep : Step verify t t') (hbefore : t.flights i ≠ .landed (.failed (.trap x)))
    (hafter : t'.flights i = .landed (.failed (.trap x))) :
    x = .instant ∨ ∃ e more told rest, t.flights i = .underWay e more told rest ∧
      ∃ y ∈ told, y.answer = .error (.trap x) := by
  -- The step is one of this dispatch; the others stand where they stood.
  have hmoved {j : ι} {f : Flight} (hf : (t.move j f).flights i = .landed (.failed (.trap x))) :
      i = j ∧ f = .landed (.failed (.trap x)) := by
    by_cases hij : i = j
    · subst hij
      exact ⟨rfl, (flights_move_self t i f).symm.trans hf⟩
    · rw [flights_move_of_ne t f hij] at hf
      exact absurd hf hbefore
  cases hstep with
  | look hi => cases (hmoved hafter).2
  | hear hi => cases (hmoved hafter).2
  | @giveUp j e more told r hi =>
    obtain ⟨rfl, hf⟩ := hmoved hafter
    obtain rfl := Flight.eq_trap_of_refused hf
    obtain ⟨-, -, seen, -, -, hlead⟩ := h.of_underWay hi
    exact .inr ⟨e, more, told, _, hi, e.repeats_attempt verify seen told x hlead⟩
  | @refuse j e more told c clock r hi hc =>
    obtain ⟨rfl, hf⟩ := hmoved hafter
    obtain rfl := Flight.eq_trap_of_refused hf
    obtain ⟨-, -, seen, -, -, hlead⟩ := h.of_underWay hi
    exact .inl (Event.traps_commit hs (Event.commits_of_leads hlead) x hc)
  | @commit j e more told c clock l fx failed hi hc hfailed =>
    by_cases hij : i = j
    · subst hij
      rw [flights_land_self t ⟨i, told, clock⟩] at hafter
      cases hafter
    · rw [flights_land_of_ne t _ _ _ hij] at hafter
      exact absurd hafter hbefore

/-- **What arithmetic comes to** in a run up to some moment. -/
structure InRange (settings : DispatchSettings) (raws : ι → InboundEvent) (l₀ : Ledgers)
    (t : Traffic ι) : Prop where
  /-- A dispatch that ended with a trap ran past the end of the calendar, or
  was told the trap by whom it asked. -/
  trap : ∀ i x, t.flights i = .landed (.failed (.trap x)) → x = .instant ∨
    ∃ u e more told rest, Run settings raws l₀ u ∧
      ReflTransGen (Step settings.verifyReceipts) u t ∧
      u.flights i = .underWay e more told rest ∧ ∃ y ∈ told, y.answer = .error (.trap x)
  /-- What a deposit asks for can be subtracted from any offering. -/
  offerings : ∀ k o amount, t.ledgers.offerings.get? k = some o → ¬ amount ≤ Decimal.zero →
    ∃ rest, o.availableSupply.sub amount = .ok rest
  /-- It can be subtracted from any fractional token. -/
  fnfts : ∀ k f amount, t.ledgers.fnfts.get? k = some f → ¬ amount ≤ Decimal.zero →
    ∃ rest, f.availableSupply.sub amount = .ok rest
  /-- Any product can be divided by a hundred. -/
  shares : ∀ product : Decimal, ∃ share, product.div .hundred = .ok share
  /-- An attempt that comes to a balance outside the range, from ledgers it
  saw to those of the moment, is refused with a breach of that balance. -/
  refused : ∀ (e : Event) seen told clock b,
    e.Overflows settings.verifyReceipts seen clock t.ledgers told b →
    e.Refused settings.verifyReceipts seen told clock t.ledgers (.breach (.overflow b))
  /-- A dispatch that comes to one with its next step ends there, with the
  report of a fatal failure. -/
  fatal : ∀ i e more told rest seen clock b, t.flights i = .underWay e more told rest →
    (e.attempt settings.verifyReceipts seen).Leads told rest →
    e.Overflows settings.verifyReceipts seen clock t.ledgers told b →
    (Refusal.breach (.overflow b)).isFatal = true ∧
      Step settings.verifyReceipts t (t.move i (.landed (.failed (.breach (.overflow b)))))
  /-- Every offering has a sold amount, and a stage at every instant. -/
  stages : ∀ k o, t.ledgers.offerings.get? k = some o →
    (∃ sold, o.soldAmount = .ok sold) ∧ ∀ now, ∃ s, o.stage now = .ok s

/-- **Arithmetic never stops a dispatch**, in any run from ledgers whose
supplies are within their bounds, and every document under its own key
(`Seed.keyed_ledgers`). -/
theorem inRange_of_run (hl : l₀.Keyed) (hs : l₀.WithinSupply) (h : Run settings raws l₀ t) :
    InRange settings raws l₀ t where
  trap i x hx := by
    obtain ⟨u, u', hpasses, hbefore, hafter⟩ :=
      exists_passes (P := fun t => t.flights i ≠ .landed (.failed (.trap x))) h
        (flights_start_ne_trap x) (not_not.mpr hx)
    have hsound := sound_start.steps hl hpasses.before
    have hwithin := sound_start.withinSupply hl hpasses.before hs
    refine (hsound.trap_of_step hwithin hpasses.step hbefore (not_not.mp hafter)).imp_right ?_
    rintro ⟨e, more, told, rest, hi, htold⟩
    exact ⟨u, e, more, told, rest, hpasses.before, .head hpasses.step hpasses.after, hi, htold⟩
  offerings k o amount ho hamount := by
    have hwithin := sound_start.withinSupply hl h hs
    exact Supply.exists_sub hamount (hwithin.offerings k o ho)
  fnfts k f amount hf hamount := by
    have hwithin := sound_start.withinSupply hl h hs
    exact Supply.exists_sub hamount (hwithin.fnfts k f hf)
  shares product := product.exists_div_hundred
  refused e seen told clock b hb := hb.refused
  fatal i e more told rest seen clock b hi hlead hb := by
    refine ⟨rfl, ?_⟩
    have hend : Flight.refused e more (.breach (.overflow b)) = _ := Flight.refused_of_isFatal rfl
    rw [← hend]
    rcases hb.refused with hrefuse | ⟨c, hcommit, hc⟩
    · obtain rfl := hlead.unique hrefuse
      exact .giveUp hi
    · obtain rfl := hlead.unique hcommit
      exact .refuse hi hc
  stages k o ho := by
    have hwithin := sound_start.withinSupply hl h hs
    exact Offering.exists_stage (hwithin.offerings k o ho)

/-! ## A full offering -/

/-- The greatest decimal. -/
def greatest : Decimal := (Decimal.ofParts? (2 ^ 96 - 1) 0).getD .zero

/-- An offering of the greatest supply, a hundred of it available, that sold
for the greatest amount. -/
def fullOffering : Offering :=
  { sampleOffering with totalSupply := greatest, soldValue := greatest }

/-- The full offering with its fractional token. -/
def sampleFull : Ledgers :=
  Seed.ledgers
    { fnfts := [⟨"fnft", none, [], .active, greatest, .hundred, .epoch⟩]
      offerings := [fullOffering] }

theorem keyed_sampleFull : sampleFull.Keyed := Seed.keyed_ledgers _

theorem withinSupply_sampleFull : sampleFull.WithinSupply := by
  constructor
  · intro k o ho
    have hmem : o ∈ [fullOffering] := Collection.mem_toList.mpr ⟨k, ho⟩
    rw [List.mem_singleton.mp hmem]
    exact ⟨by decide +kernel, by decide +kernel⟩
  · intro k f hf
    have hmem : f ∈ [⟨"fnft", none, [], .active, greatest, .hundred, .epoch⟩] :=
      Collection.mem_toList.mpr ⟨k, hf⟩
    rw [List.mem_singleton.mp hmem]
    exact ⟨by decide +kernel, by decide +kernel⟩

/-- The balance that an event left the decimal range with. -/
def overflow? : Report → Option Balance
  | .failed (.breach (.overflow b)) => some b
  | _ => none

theorem inRange_full :
    ∃ t, Run ⟨false, 1⟩ (fun _ : Unit => depositTwice false) sampleFull t ∧
      (∃ r, t.flights () = .landed r ∧ overflow? r = some (.soldValue "offering")) ∧
      InRange ⟨false, 1⟩ (fun _ : Unit => depositTwice false) sampleFull t := by
  obtain ⟨t, hrun, hreports, -⟩ :=
    @Host.Quiet.run_dispatchAll _ _ Unit _ (fun _ => depositTwice false) ⟨false, 1⟩
      ⟨sampleFull, [], []⟩ (Rerun.quiet_host fun _ => true) [()] (by decide)
  refine ⟨t, hrun, ⟨_, (List.cons.inj hreports).1, ?_⟩,
    inRange_of_run keyed_sampleFull withinSupply_sampleFull hrun⟩
  decide +kernel

end Traffic

end ChainLedger
