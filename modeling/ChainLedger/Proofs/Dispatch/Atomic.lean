import ChainLedger.Proofs.Dispatch.Sequence
import ChainLedger.Proofs.Transition.Advance

/-!
# A dispatch does all or nothing

Until it commits, a dispatch only looks: it reads the clock and asks
questions (`Host.Looks`). If its event is not applied that is all that ever
happens; if it is, the ledgers are written once, and then every effect is
fired once, in order, whatever becomes of the ones before it (`Host.Fires`).
`Host.Dispatched` says so of any host. Of a quiet host it follows that an
event changes the ledgers as its kind does, or leaves them as they were.
-/

namespace ChainLedger

namespace Host

variable {σ : Type} {h : Host σ}

/-! ## Looking, and firing effects -/

/-- A host looks: at the clock, or for an answer. -/
inductive Look (h : Host σ) : σ → σ → Prop
  | clock (s : σ) : Look h s (h.clock s).2
  | answer (q : Question) (s : σ) : Look h s (h.answer q s).2

/-- **A host does nothing but look**, any number of times. -/
def Looks (h : Host σ) : σ → σ → Prop := Relation.ReflTransGen h.Look

/-- **Effects are fired in order**, each of them once, with these outcomes. -/
inductive Fires (h : Host σ) : List Effect → σ → List Bool → σ → Prop
  | nil (s : σ) : Fires h [] s [] s
  | cons {e : Effect} {fx : List Effect} {s s' : σ} {outcomes : List Bool}
      (hrest : Fires h fx (h.fire e s).2 outcomes s') :
      Fires h (e :: fx) s ((h.fire e s).1 :: outcomes) s'

theorem Fires.length_eq {fx : List Effect} {s s' : σ} {outcomes : List Bool}
    (hfires : h.Fires fx s outcomes s') : outcomes.length = fx.length := by
  induction hfires with
  | nil => rfl
  | cons _ ih => rw [List.length_cons, List.length_cons, ih]

/-- Firing effects fires each of them, and counts those that were not taken. -/
theorem fires_fireAll (fx : List Effect) (s : σ) :
    ∃ outcomes, h.Fires fx s outcomes (Effect.fireAll h.fire fx s).2 ∧
      (Effect.fireAll h.fire fx s).1 = outcomes.count false := by
  induction fx generalizing s with
  | nil => exact ⟨[], .nil s, rfl⟩
  | cons e fx ih =>
    obtain ⟨outcomes, hrest, hcount⟩ := ih (h.fire e s).2
    refine ⟨(h.fire e s).1 :: outcomes, .cons hrest, ?_⟩
    simp only [Effect.fireAll, hcount, List.count_cons]
    cases (h.fire e s).1 <;> rfl

/-! ## What a dispatch does -/

/-- **How an attempt ends**: after nothing but looks, with a refusal or with
one write of what a commit makes of the ledgers of that moment. -/
inductive Ended (h : Host σ) (comes : Commit → Prop) (s : σ) :
    Except Refusal (List Effect) × σ → Prop
  | refused {r : Refusal} {s' : σ} (hlooks : h.Looks s s') : Ended h comes s (.error r, s')
  | written {c : Commit} {clock : Clock} {l : Ledgers} {fx : List Effect} {s' : σ}
      (hlooks : h.Looks s s') (hcomes : comes c) (hc : c clock (h.ledgers s') = .ok (l, fx)) :
      Ended h comes s (.ok fx, h.write l s')

theorem Ended.head {comes : Commit → Prop} {s s' : σ} {out : Except Refusal (List Effect) × σ}
    (hlooks : h.Looks s s') (hend : h.Ended comes s' out) : h.Ended comes s out := by
  cases hend with
  | refused hrest => exact .refused (hlooks.trans hrest)
  | written hrest hcomes hc => exact .written (hlooks.trans hrest) hcomes hc

theorem ended_run (a : Attempt) (s : σ) :
    h.Ended (fun c => ∃ told, a.Leads told (.commit c)) s (h.run a s) := by
  induction a generalizing s with
  | refuse r => exact .refused .refl
  | ask q next ih =>
    refine .head (.single (.answer q s)) ?_
    generalize hout : h.run (next (h.answer q s).1) (h.answer q s).2 = out
    have hrest := ih (h.answer q s).1 (h.answer q s).2
    rw [hout] at hrest
    simp only [run, hout]
    cases hrest with
    | refused hlooks => exact .refused hlooks
    | written hlooks hcomes hc =>
      obtain ⟨told, hleads⟩ := hcomes
      exact .written hlooks ⟨_, .hear hleads⟩ hc
  | commit c =>
    simp only [run, Host.commit]
    have hread : h.Looks s (h.clock s).2 := .single (.clock s)
    cases hc : c (h.clock s).1 (h.ledgers (h.clock s).2) with
    | ok out => exact .written hread ⟨[], .here⟩ hc
    | error r => exact .refused hread

/-- Looking leaves the ledgers of a quiet host alone. -/
theorem Quiet.ledgers_looks (hq : h.Quiet) {s s' : σ} (hlooks : h.Looks s s') :
    h.ledgers s' = h.ledgers s := by
  induction hlooks with
  | refl => rfl
  | tail _ hlook ih =>
    cases hlook with
    | clock s => rw [hq.clock, ih]
    | answer q s => rw [hq.answer, ih]

theorem Quiet.ended_attempt (hq : h.Quiet) (verify : Bool) (e : Event) {s s' : σ}
    (hlooks : h.Looks s s') :
    h.Ended (e.payload.Commits e.origin (h.ledgers s)) s (h.attempt verify e s') := by
  have hrun := h.ended_run (e.attempt verify (h.ledgers s')) s'
  unfold attempt
  generalize h.run (e.attempt verify (h.ledgers s')) s' = out at hrun ⊢
  refine .head hlooks ?_
  cases hrun with
  | refused hrest => exact .refused hrest
  | written hrest hcomes hc =>
    obtain ⟨told, hleads⟩ := hcomes
    exact .written hrest (hq.ledgers_looks hlooks ▸ Event.commits_of_leads hleads) hc

/-- **Attempts after conflicts** look again, and write once at most. -/
theorem Quiet.ended_attempts (hq : h.Quiet) (verify : Bool) (e : Event) (more : Nat) {s s' : σ}
    (hlooks : h.Looks s s') :
    h.Ended (e.payload.Commits e.origin (h.ledgers s)) s (h.attempts verify e more s') := by
  induction more generalizing s' with
  | zero => exact hq.ended_attempt verify e hlooks
  | succ more ih =>
    have hattempt := hq.ended_attempt verify e hlooks
    rw [attempts]
    generalize h.attempt verify e s' = out at hattempt ⊢
    cases hattempt with
    | @refused r s₁ hlooks₁ =>
      simp only
      split
      · exact ih hlooks₁
      · exact .refused hlooks₁
    | written hlooks₁ hcomes hc => exact .written hlooks₁ hcomes hc

/-- **What a dispatch did**, by its report. -/
inductive Dispatched (h : Host σ) (raw : InboundEvent) (s : σ) : Report × σ → Prop
  /-- The event was not applied, and nothing was done but look. -/
  | notApplied {r : Report} {s' : σ} (hr : r.isApplied = false) (hlooks : h.Looks s s') :
      Dispatched h raw s (r, s')
  /-- The event was applied: its change was written, and then its effects were
  fired. -/
  | applied {e : Event} {clock : Clock} {l : Ledgers} {fx : List Effect} {outcomes : List Bool}
      {s₁ s' : σ} (hraw : raw.normalize = .ok (some e)) (hlooks : h.Looks s s₁)
      (hchanges : e.Changes clock (h.ledgers s) l fx)
      (hfires : h.Fires fx (h.write l s₁) outcomes s') :
      Dispatched h raw s (.applied fx.length (outcomes.count false), s')

/-- **A dispatch does all or nothing.** -/
theorem Quiet.dispatched (hq : h.Quiet) (settings : DispatchSettings) (raw : InboundEvent)
    (s : σ) : h.Dispatched raw s (h.dispatch settings raw s) := by
  unfold dispatch
  cases hraw : raw.normalize with
  | error r => exact .notApplied (Report.isApplied_ofRefusal r) .refl
  | ok found =>
    cases found with
    | none => exact .notApplied rfl .refl
    | some e =>
      have hend := hq.ended_attempts settings.verifyReceipts e settings.maxConflictRetries
        (Relation.ReflTransGen.refl (a := s))
      simp only [apply]
      generalize h.attempts settings.verifyReceipts e settings.maxConflictRetries s = out at hend ⊢
      cases hend with
      | @refused r s' hlooks => exact .notApplied (Report.isApplied_ofRefusal r) hlooks
      | @written c clock l fx s' hlooks hcomes hc =>
        obtain ⟨outcomes, hfires, hcount⟩ := h.fires_fireAll fx (h.write l s')
        rw [hq.ledgers_looks hlooks] at hc
        simp only [hcount]
        exact .applied hraw hlooks ⟨c, hcomes, hc⟩ hfires

/-- Firing effects leaves the ledgers of a quiet host alone. -/
theorem Quiet.ledgers_fires (hq : h.Quiet) {fx : List Effect} {s s' : σ} {outcomes : List Bool}
    (hfires : h.Fires fx s outcomes s') : h.ledgers s' = h.ledgers s := by
  induction hfires with
  | nil => rfl
  | cons _ ih => rw [ih, hq.fire]

/-- **An event that is applied** changes the ledgers as its kind does. -/
theorem Quiet.changes_of_applied (hq : h.Quiet) {settings : DispatchSettings} {raw : InboundEvent}
    {s : σ} {n failed : Nat} (happlied : (h.dispatch settings raw s).1 = .applied n failed) :
    ∃ e clock fx, raw.normalize = .ok (some e) ∧
      e.Changes clock (h.ledgers s) (h.ledgers (h.dispatch settings raw s).2) fx := by
  have hdispatched := hq.dispatched settings raw s
  generalize h.dispatch settings raw s = out at happlied hdispatched
  cases hdispatched with
  | @notApplied r _ hr =>
    obtain rfl : r = .applied n failed := happlied
    cases hr
  | @applied e clock l fx _ _ _ hraw _ hchanges hfires =>
    rw [← hq.write l, ← hq.ledgers_fires hfires] at hchanges
    exact ⟨e, clock, fx, hraw, hchanges⟩

/-- Documents stay under their own keys. -/
theorem Quiet.keyed_dispatch (hq : h.Quiet) (settings : DispatchSettings) (raw : InboundEvent)
    {s : σ} (hl : (h.ledgers s).Keyed) :
    (h.ledgers (h.dispatch settings raw s).2).Keyed := by
  have hdispatched := hq.dispatched settings raw s
  generalize h.dispatch settings raw s = out at hdispatched ⊢
  cases hdispatched with
  | notApplied _ hlooks => exact (hq.ledgers_looks hlooks).symm ▸ hl
  | applied _ _ hchanges hfires =>
    rw [hq.ledgers_fires hfires, hq.write]
    exact (hchanges.follows hl).keyed hl

end Host

end ChainLedger
