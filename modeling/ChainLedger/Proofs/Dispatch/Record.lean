import ChainLedger.Proofs.Dispatch.Atomic

/-!
# The record of a dispatch

A host can keep a record of what it does (`Host.recording`). It does the same
otherwise: two hosts whose states are alike in all that a dispatch sees give
the same reports and stay alike (`Host.Similar.dispatch`), and a record is
nothing that a dispatch sees.

The record says in one line what a dispatch did (`Recorded`): no write and no
effect if the event was not applied, and one write followed by every effect,
in order, if it was.
-/

namespace ChainLedger

namespace Host

variable {σ σ' : Type} {h : Host σ} {h' : Host σ'} {R : σ → σ' → Prop} {s : σ} {s' : σ'}

/-! ## Similar hosts -/

/-- **Two hosts do the same** in states that are related, and what they do
leaves their states related. -/
structure Similar (h : Host σ) (h' : Host σ') (R : σ → σ' → Prop) : Prop where
  ledgers : ∀ {s s'}, R s s' → h.ledgers s = h'.ledgers s'
  write : ∀ {s s'} l, R s s' → R (h.write l s) (h'.write l s')
  clock : ∀ {s s'}, R s s' → (h.clock s).1 = (h'.clock s').1 ∧ R (h.clock s).2 (h'.clock s').2
  answer : ∀ {s s'} q, R s s' →
    (h.answer q s).1 = (h'.answer q s').1 ∧ R (h.answer q s).2 (h'.answer q s').2
  fire : ∀ {s s'} e, R s s' → (h.fire e s).1 = (h'.fire e s').1 ∧ R (h.fire e s).2 (h'.fire e s').2

namespace Similar

theorem run (hs : h.Similar h' R) (a : Attempt) (hR : R s s') :
    (h.run a s).1 = (h'.run a s').1 ∧ R (h.run a s).2 (h'.run a s').2 := by
  induction a generalizing s s' with
  | refuse r => exact ⟨rfl, hR⟩
  | ask q next ih =>
    obtain ⟨hanswer, hR'⟩ := hs.answer q hR
    simp only [Host.run, ← hanswer]
    exact ih _ hR'
  | commit c =>
    obtain ⟨hclock, hR'⟩ := hs.clock hR
    simp only [Host.run, Host.commit, ← hclock, ← hs.ledgers hR']
    cases c (h.clock s).1 (h.ledgers (h.clock s).2) with
    | ok out => exact ⟨rfl, hs.write out.1 hR'⟩
    | error r => exact ⟨rfl, hR'⟩

theorem attempts (hs : h.Similar h' R) (verify : Bool) (e : Event) (more : Nat) (hR : R s s') :
    (h.attempts verify e more s).1 = (h'.attempts verify e more s').1 ∧
      R (h.attempts verify e more s).2 (h'.attempts verify e more s').2 := by
  have hattempt {s s'} (hR : R s s') :
      (h.attempt verify e s).1 = (h'.attempt verify e s').1 ∧
        R (h.attempt verify e s).2 (h'.attempt verify e s').2 := by
    unfold Host.attempt
    rw [← hs.ledgers hR]
    exact hs.run _ hR
  induction more generalizing s s' with
  | zero => exact hattempt hR
  | succ more ih =>
    obtain ⟨hresult, hR'⟩ := hattempt hR
    rw [Host.attempts, Host.attempts]
    generalize h.attempt verify e s = out, h'.attempt verify e s' = out' at hresult hR'
    obtain ⟨result, s₁⟩ := out
    obtain ⟨_, s₁'⟩ := out'
    cases hresult
    cases result with
    | ok fx => exact ⟨rfl, hR'⟩
    | error r =>
      simp only
      split
      · exact ih hR'
      · exact ⟨rfl, hR'⟩

theorem fireAll (hs : h.Similar h' R) (fx : List Effect) (hR : R s s') :
    (Effect.fireAll h.fire fx s).1 = (Effect.fireAll h'.fire fx s').1 ∧
      R (Effect.fireAll h.fire fx s).2 (Effect.fireAll h'.fire fx s').2 := by
  induction fx generalizing s s' with
  | nil => exact ⟨rfl, hR⟩
  | cons e fx ih =>
    obtain ⟨htaken, hR'⟩ := hs.fire e hR
    obtain ⟨hfailed, hR''⟩ := ih hR'
    simp only [Effect.fireAll, htaken, hfailed]
    exact ⟨trivial, hR''⟩

/-- **Similar hosts dispatch alike.** -/
theorem dispatch (hs : h.Similar h' R) (settings : DispatchSettings) (raw : InboundEvent)
    (hR : R s s') :
    (h.dispatch settings raw s).1 = (h'.dispatch settings raw s').1 ∧
      R (h.dispatch settings raw s).2 (h'.dispatch settings raw s').2 := by
  unfold Host.dispatch
  split
  · exact ⟨rfl, hR⟩
  · exact ⟨rfl, hR⟩
  · next e _ =>
    obtain ⟨hresult, hR'⟩ := hs.attempts settings.verifyReceipts e settings.maxConflictRetries hR
    unfold Host.apply
    generalize h.attempts settings.verifyReceipts e settings.maxConflictRetries s = out,
      h'.attempts settings.verifyReceipts e settings.maxConflictRetries s' = out' at hresult hR'
    obtain ⟨result, s₁⟩ := out
    obtain ⟨_, s₁'⟩ := out'
    cases hresult
    cases result with
    | error r => exact ⟨rfl, hR'⟩
    | ok fx =>
      obtain ⟨hfailed, hR''⟩ := hs.fireAll fx hR'
      simp only [hfailed]
      exact ⟨trivial, hR''⟩

end Similar

end Host

/-! ## Recording -/

/-- Something that a host does. -/
inductive Happening
  /-- The clock was read. -/
  | timed
  /-- A question was asked. -/
  | asked (q : Question)
  /-- Ledgers were written. -/
  | wrote (l : Ledgers)
  /-- An effect was fired, and was taken or not. -/
  | fired (e : Effect) (taken : Bool)

/-- It is a look, at the clock or for an answer. -/
def Happening.isLook : Happening → Bool
  | .timed => true
  | .asked _ => true
  | .wrote _ => false
  | .fired .. => false

namespace Host

variable {σ : Type} {h : Host σ}

/-- **A host that records what it does**, the latest last. -/
def recording (h : Host σ) : Host (σ × List Happening) where
  ledgers s := h.ledgers s.1
  write l s := (h.write l s.1, s.2 ++ [.wrote l])
  clock s := ((h.clock s.1).1, (h.clock s.1).2, s.2 ++ [.timed])
  answer q s := ((h.answer q s.1).1, (h.answer q s.1).2, s.2 ++ [.asked q])
  fire e s := ((h.fire e s.1).1, (h.fire e s.1).2, s.2 ++ [.fired e (h.fire e s.1).1])

/-- A host does the same whether it records or not. -/
theorem similar_recording (h : Host σ) : h.Similar h.recording fun s s' => s = s'.1 where
  ledgers hs := by rw [hs]; rfl
  write l hs := by rw [hs]; rfl
  clock hs := by rw [hs]; exact ⟨rfl, rfl⟩
  answer q hs := by rw [hs]; exact ⟨rfl, rfl⟩
  fire e hs := by rw [hs]; exact ⟨rfl, rfl⟩

theorem Quiet.recording (hq : h.Quiet) : h.recording.Quiet where
  write l s := hq.write l s.1
  clock s := hq.clock s.1
  answer q s := hq.answer q s.1
  fire e s := hq.fire e s.1

/-- Looks are recorded as looks. -/
theorem record_looks {s s' : σ × List Happening} (hlooks : h.recording.Looks s s') :
    ∃ looks, s'.2 = s.2 ++ looks ∧ ∀ x ∈ looks, x.isLook = true := by
  induction hlooks with
  | refl => exact ⟨[], (List.append_nil _).symm, nofun⟩
  | tail _ hlook ih =>
    obtain ⟨looks, hs, hall⟩ := ih
    have hsnoc {x : Happening} (hx : x.isLook = true) : ∀ y ∈ looks ++ [x], y.isLook = true := by
      intro y hy
      rcases List.mem_append.mp hy with hy | hy
      · exact hall y hy
      · rw [List.mem_singleton.mp hy]
        exact hx
    cases hlook with
    | clock s₁ =>
      exact ⟨looks ++ [.timed], by simp [recording, hs], hsnoc rfl⟩
    | answer q s₁ =>
      exact ⟨looks ++ [.asked q], by simp [recording, hs], hsnoc rfl⟩

/-- Effects that are fired are recorded in order, with their outcomes. -/
theorem record_fires {fx : List Effect} {s s' : σ × List Happening} {outcomes : List Bool}
    (hfires : h.recording.Fires fx s outcomes s') :
    s'.2 = s.2 ++ List.zipWith .fired fx outcomes := by
  induction hfires with
  | nil => exact (List.append_nil _).symm
  | @cons e fx s s' outcomes _ ih =>
    rw [ih]
    simp [recording]

/-- **What the record of a dispatch says**: of an event that is not applied
only looks, and of one that is applied looks, one write of the change that the
event makes, and every effect of it. -/
inductive Recorded (raw : InboundEvent) (l : Ledgers) : Report → Ledgers → List Happening → Prop
  | notApplied {r : Report} {looks : List Happening} (hr : r.isApplied = false)
      (hlooks : ∀ x ∈ looks, x.isLook = true) : Recorded raw l r l looks
  | applied {e : Event} {clock : Clock} {l' : Ledgers} {fx : List Effect} {looks : List Happening}
      {outcomes : List Bool} (hraw : raw.normalize = .ok (some e))
      (hlooks : ∀ x ∈ looks, x.isLook = true) (hchanges : e.Changes clock l l' fx)
      (hadvances : l.Advances l') (hlength : outcomes.length = fx.length) :
      Recorded raw l (.applied fx.length (outcomes.count false)) l'
        (looks ++ .wrote l' :: List.zipWith .fired fx outcomes)

/-- **A dispatch does all or nothing**, as its record says. -/
theorem Quiet.recorded (hq : h.Quiet) (settings : DispatchSettings) (raw : InboundEvent) (s : σ) :
    Recorded raw (h.ledgers s) (h.dispatch settings raw s).1
      (h.ledgers (h.dispatch settings raw s).2)
      (h.recording.dispatch settings raw (s, [])).2.2 := by
  have hstart : s = (s, ([] : List Happening)).1 := rfl
  obtain ⟨hreport, hstate⟩ := h.similar_recording.dispatch settings raw hstart
  rw [hreport, hstate]
  have hdispatched := hq.recording.dispatched settings raw (s, [])
  generalize h.recording.dispatch settings raw (s, []) = out at hdispatched ⊢
  cases hdispatched with
  | notApplied hr hlooks =>
    obtain ⟨looks, hrecord, hall⟩ := record_looks hlooks
    have hledgers : h.ledgers _ = h.ledgers s := hq.recording.ledgers_looks hlooks
    rw [hledgers, hrecord]
    exact .notApplied hr hall
  | @applied e clock l' fx outcomes s₁ s' hraw hlooks hchanges hfires =>
    obtain ⟨looks, hrecord, hall⟩ := record_looks hlooks
    have hledgers : h.ledgers s'.1 = l' :=
      (hq.recording.ledgers_fires hfires).trans (hq.recording.write l' s₁)
    have hwhole : s'.2 = looks ++ .wrote l' :: List.zipWith .fired fx outcomes := by
      rw [record_fires hfires]
      simp only [Host.recording, hrecord, List.nil_append, List.append_assoc, List.singleton_append]
    rw [hledgers, hwhole]
    exact .applied hraw hall hchanges hchanges.advances hfires.length_eq

end Host

end ChainLedger
