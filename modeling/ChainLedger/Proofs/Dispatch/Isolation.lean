import ChainLedger.Proofs.Dispatch.Accounting
import ChainLedger.Proofs.Dispatch.Record

/-!
# Events that are not applied might as well not be there

Where answers depend on the question alone, and those who take effects do not
see what is asked (`Host.Steady`), an event that is not applied leaves nothing
behind that a later one could meet. So of events that are dispatched one after
the other, each at its own readings of the clock, any that were not applied can
be left out: the others are reported as before, and the ledgers end as before
(`Host.Steady.dispatchTimed_kept`). Such a batch is what a host dispatches that
reads its clock event by event (`Host.exists_dispatchAll_clocked`).

Together with what the record of each single dispatch says this is
`Host.Steady.isolated`. A trap of a program is one of its refusals, so a
dispatch that meets one is not applied.
-/

namespace ChainLedger

/-! ## Batches -/

/-- An event, and the clock while it is dispatched. -/
structure Delivery where
  event : InboundEvent
  clock : Clock

/-- The elements that are marked to be kept. -/
def kept {α : Type} : List Bool → List α → List α
  | true :: keep, x :: xs => x :: kept keep xs
  | false :: keep, _ :: xs => kept keep xs
  | _, _ => []

namespace Host

variable {σ τ : Type} {h : Host σ} {answers : (q : Question) → q.Answer} {takers : σ → τ}
  {settings : DispatchSettings} {s s' : σ}

/-- A host that reads the same clock every time. -/
def standing (h : Host σ) (clock : Clock) : Host σ :=
  { h with clock := fun s => (clock, s) }

/-- **Dispatches events in the order of their delivery**, each at its own
readings of the clock. -/
def dispatchTimed (h : Host σ) (settings : DispatchSettings) :
    List Delivery → σ → List Report × σ
  | [], s => ([], s)
  | d :: rest, s =>
    let (r, s) := (h.standing d.clock).dispatch settings d.event s
    let (rs, s) := dispatchTimed h settings rest s
    (r :: rs, s)

/-! ## Reading the clock event by event -/

/-- **A host that reads its clock off a list**, one clock for each commit that
comes to be made. -/
def clocked (h : Host σ) : Host (σ × List Clock) where
  ledgers s := h.ledgers s.1
  write l s := (h.write l s.1, s.2)
  clock s := (s.2.headD (.still .epoch), s.1, s.2.tail)
  answer q s := ((h.answer q s.1).1, (h.answer q s.1).2, s.2)
  fire e s := ((h.fire e s.1).1, (h.fire e s.1).2, s.2)

/-- The clocks that a batch reads, if each of its events reads its own as often
as `counts` says. -/
def clocksOf (counts : List Nat) (ds : List Delivery) : List Clock :=
  (List.zipWith (fun n (d : Delivery) => List.replicate n d.clock) counts ds).flatten

theorem fireAll_clocked (fx : List Effect) (s : σ) (rest : List Clock) :
    Effect.fireAll h.clocked.fire fx (s, rest) =
      ((Effect.fireAll h.fire fx s).1, (Effect.fireAll h.fire fx s).2, rest) := by
  induction fx generalizing s with
  | nil => rfl
  | cons e fx ih =>
    have hfire : h.clocked.fire e (s, rest) = ((h.fire e s).1, (h.fire e s).2, rest) := rfl
    rw [Effect.fireAll, hfire]
    simp only [ih, Effect.fireAll]

/-- An attempt reads one clock if it comes to a commit, and none if it does not. -/
theorem exists_run_clocked (clock : Clock) (a : Attempt) (s : σ) :
    ∃ n, ∀ rest, h.clocked.run a (s, List.replicate n clock ++ rest) =
      (((h.standing clock).run a s).1, ((h.standing clock).run a s).2, rest) := by
  induction a generalizing s with
  | refuse r => exact ⟨0, fun _ => rfl⟩
  | ask q next ih => exact ih (h.answer q s).1 (h.answer q s).2
  | commit c =>
    refine ⟨1, fun rest => ?_⟩
    simp only [run, commit, clocked, standing, List.replicate_one, List.singleton_append,
      List.headD_cons, List.tail_cons]
    cases c clock (h.ledgers s) <;> rfl

/-- Attempts read the clock one after the other. -/
theorem exists_attempts_clocked (clock : Clock) (verify : Bool) (e : Event) (more : Nat) (s : σ) :
    ∃ n, ∀ rest, h.clocked.attempts verify e more (s, List.replicate n clock ++ rest) =
      (((h.standing clock).attempts verify e more s).1,
        ((h.standing clock).attempts verify e more s).2, rest) := by
  induction more generalizing s with
  | zero => exact exists_run_clocked clock (e.attempt verify (h.ledgers s)) s
  | succ more ih =>
    obtain ⟨n, hn⟩ := exists_run_clocked (h := h) clock (e.attempt verify (h.ledgers s)) s
    have hattempt (rest : List Clock) :
        h.clocked.attempt verify e (s, List.replicate n clock ++ rest) =
          (((h.standing clock).attempt verify e s).1,
            ((h.standing clock).attempt verify e s).2, rest) := hn rest
    cases hout : (h.standing clock).attempt verify e s with
    | mk out s' =>
      simp only [hout] at hattempt
      cases out with
      | ok fx => exact ⟨n, fun rest => by simp only [attempts, hattempt, hout]⟩
      | error r =>
        by_cases hretry : r.isRetryable = true
        · -- The clocks of this attempt stand before those of the next.
          obtain ⟨m, hm⟩ := ih s'
          refine ⟨n + m, fun rest => ?_⟩
          rw [List.replicate_add, List.append_assoc]
          simp only [attempts, hattempt, hout, if_pos hretry, hm]
        · exact ⟨n, fun rest => by simp only [attempts, hattempt, hout, if_neg hretry]⟩

/-- A dispatch reads the clock some number of times. -/
theorem exists_dispatch_clocked (clock : Clock) (settings : DispatchSettings) (raw : InboundEvent)
    (s : σ) :
    ∃ n, ∀ rest, h.clocked.dispatch settings raw (s, List.replicate n clock ++ rest) =
      (((h.standing clock).dispatch settings raw s).1,
        ((h.standing clock).dispatch settings raw s).2, rest) := by
  cases hraw : raw.normalize with
  | error r => exact ⟨0, fun _ => by simp [dispatch, hraw]⟩
  | ok e =>
    cases e with
    | none => exact ⟨0, fun _ => by simp [dispatch, hraw]⟩
    | some e =>
      obtain ⟨n, hn⟩ := exists_attempts_clocked (h := h) clock settings.verifyReceipts e
        settings.maxConflictRetries s
      refine ⟨n, fun rest => ?_⟩
      simp only [dispatch, hraw, apply, hn]
      cases (h.standing clock).attempts settings.verifyReceipts e settings.maxConflictRetries s with
      | mk out s' =>
        cases out with
        | error r => rfl
        | ok fx => simp only [fireAll_clocked, standing]

/-- **A batch is dispatched as the host does it** that reads its clock event by
event. -/
theorem exists_dispatchAll_clocked (settings : DispatchSettings) (ds : List Delivery) (s : σ) :
    ∃ counts, counts.length = ds.length ∧
      h.clocked.dispatchAll settings (ds.map (·.event)) (s, clocksOf counts ds) =
        ((h.dispatchTimed settings ds s).1, (h.dispatchTimed settings ds s).2, []) := by
  induction ds generalizing s with
  | nil => exact ⟨[], rfl, rfl⟩
  | cons d ds ih =>
    obtain ⟨n, hn⟩ := exists_dispatch_clocked (h := h) d.clock settings d.event s
    obtain ⟨counts, hlength, hrest⟩ := ih ((h.standing d.clock).dispatch settings d.event s).2
    refine ⟨n :: counts, congrArg (· + 1) hlength, ?_⟩
    rw [show clocksOf (n :: counts) (d :: ds) = List.replicate n d.clock ++ clocksOf counts ds
      from rfl]
    simp only [List.map_cons, dispatchAll, hn, hrest, dispatchTimed]

/-! ## Steady hosts -/

/-- **Answers depend on the question alone.** Whether an effect is taken
depends on the ledgers and on those who take effects, and what is asked is
nothing to them. -/
structure Steady (h : Host σ) (answers : (q : Question) → q.Answer) (takers : σ → τ) : Prop
    extends h.Quiet where
  answered : ∀ q s, (h.answer q s).1 = answers q
  takers_answer : ∀ q s, takers (h.answer q s).2 = takers s
  takers_write : ∀ {s s'} l, takers s = takers s' → takers (h.write l s) = takers (h.write l s')
  taken : ∀ {s s'} e, h.ledgers s = h.ledgers s' → takers s = takers s' →
    (h.fire e s).1 = (h.fire e s').1 ∧ takers (h.fire e s).2 = takers (h.fire e s').2

namespace Steady

/-- Two states with the same ledgers and the same takers of effects. -/
def Same (h : Host σ) (takers : σ → τ) (s s' : σ) : Prop :=
  h.ledgers s = h.ledgers s' ∧ takers s = takers s'

theorem quiet_standing (hs : h.Steady answers takers) (clock : Clock) :
    (h.standing clock).Quiet where
  write := hs.write
  clock _ := rfl
  answer := hs.answer
  fire := hs.fire

/-- All that a dispatch meets are the ledgers and the takers of effects. -/
theorem similar_standing (hs : h.Steady answers takers) (clock : Clock) :
    (h.standing clock).Similar (h.standing clock) (Same h takers) where
  ledgers hsame := hsame.1
  write l hsame := ⟨(hs.write l _).trans (hs.write l _).symm, hs.takers_write l hsame.2⟩
  clock hsame := ⟨rfl, hsame⟩
  answer q hsame := by
    refine ⟨(hs.answered q _).trans (hs.answered q _).symm, ?_, ?_⟩
    · exact (hs.answer q _).trans (hsame.1.trans (hs.answer q _).symm)
    · exact (hs.takers_answer q _).trans (hsame.2.trans (hs.takers_answer q _).symm)
  fire e hsame := by
    obtain ⟨htaken, hnext⟩ := hs.taken e hsame.1 hsame.2
    exact ⟨htaken, (hs.fire e _).trans (hsame.1.trans (hs.fire e _).symm), hnext⟩

/-- Looking leaves the ledgers and the takers of effects alone. -/
theorem same_looks (hs : h.Steady answers takers) {clock : Clock}
    (hlooks : (h.standing clock).Looks s s') : Same h takers s s' := by
  induction hlooks with
  | refl => exact ⟨rfl, rfl⟩
  | tail _ hlook ih =>
    cases hlook with
    | clock => exact ih
    | answer q =>
      exact ⟨ih.1.trans (hs.answer q _).symm, ih.2.trans (hs.takers_answer q _).symm⟩

/-- **An event that is not applied** leaves nothing behind. -/
theorem same_dispatch (hs : h.Steady answers takers) (clock : Clock) (raw : InboundEvent) (s : σ)
    (hr : ((h.standing clock).dispatch settings raw s).1.isApplied = false) :
    Same h takers s ((h.standing clock).dispatch settings raw s).2 := by
  have hdispatched := (hs.quiet_standing clock).dispatched settings raw s
  generalize (h.standing clock).dispatch settings raw s = out at hr hdispatched
  cases hdispatched with
  | notApplied _ hlooks => exact hs.same_looks hlooks
  | applied => cases hr

/-- From states that are the same, with and without some of the events that
are not applied. -/
theorem same_dispatchTimed (hs : h.Steady answers takers) (ds : List Delivery) (keep : List Bool)
    (hlength : keep.length = ds.length) (hsame : Same h takers s s')
    (hkeep : ∀ r ∈ kept (keep.map not) (h.dispatchTimed settings ds s).1, r.isApplied = false) :
    (h.dispatchTimed settings (kept keep ds) s').1 = kept keep (h.dispatchTimed settings ds s).1 ∧
      Same h takers (h.dispatchTimed settings ds s).2
        (h.dispatchTimed settings (kept keep ds) s').2 := by
  induction ds generalizing keep s s' with
  | nil =>
    rw [List.length_eq_zero_iff.mp hlength]
    exact ⟨rfl, hsame⟩
  | cons d ds ih =>
    cases keep with
    | nil => cases hlength
    | cons b keep =>
      have hlength' : keep.length = ds.length := Nat.succ.inj hlength
      cases b with
      | true =>
        obtain ⟨hreport, hnext⟩ :=
          (hs.similar_standing d.clock).dispatch settings d.event hsame
        obtain ⟨hreports, hlast⟩ := ih keep hlength' hnext hkeep
        simp only [kept, dispatchTimed, hreport, hreports]
        exact ⟨trivial, hlast⟩
      | false =>
        simp only [dispatchTimed, kept, List.map_cons, Bool.not_false, List.mem_cons,
          forall_eq_or_imp] at hkeep
        have hnext := hs.same_dispatch d.clock d.event s hkeep.1
        exact ih keep hlength' ⟨hnext.1.symm.trans hsame.1, hnext.2.symm.trans hsame.2⟩ hkeep.2

/-- **Events that are not applied can be left out**, any set of them. -/
theorem dispatchTimed_kept (hs : h.Steady answers takers) (ds : List Delivery) (keep : List Bool)
    (s : σ) (hlength : keep.length = ds.length)
    (hkeep : ∀ r ∈ kept (keep.map not) (h.dispatchTimed settings ds s).1, r.isApplied = false) :
    (h.dispatchTimed settings (kept keep ds) s).1 = kept keep (h.dispatchTimed settings ds s).1 ∧
      h.ledgers (h.dispatchTimed settings (kept keep ds) s).2 =
        h.ledgers (h.dispatchTimed settings ds s).2 := by
  obtain ⟨hreports, hsame⟩ := hs.same_dispatchTimed ds keep hlength ⟨rfl, rfl⟩ hkeep
  exact ⟨hreports, hsame.1.symm⟩

/-- **Atomicity and isolation.** Every event has a report; what was done for
it is what the record says, and recording changes nothing. Of any batch, events
that were not applied can be left out; and a batch is what the host dispatches,
reading its clock event by event. -/
theorem isolated (hs : h.Steady answers takers) (settings : DispatchSettings) :
    (∀ raw s,
      (h.recording.dispatch settings raw (s, [])).1 = (h.dispatch settings raw s).1 ∧
      (h.recording.dispatch settings raw (s, [])).2.1 = (h.dispatch settings raw s).2 ∧
      Recorded raw (h.ledgers s) (h.dispatch settings raw s).1
        (h.ledgers (h.dispatch settings raw s).2)
        (h.recording.dispatch settings raw (s, [])).2.2) ∧
    (∀ (ds : List Delivery) (keep : List Bool) (s : σ), keep.length = ds.length →
      (∀ r ∈ kept (keep.map not) (h.dispatchTimed settings ds s).1, r.isApplied = false) →
      (h.dispatchTimed settings (kept keep ds) s).1 =
          kept keep (h.dispatchTimed settings ds s).1 ∧
        h.ledgers (h.dispatchTimed settings (kept keep ds) s).2 =
          h.ledgers (h.dispatchTimed settings ds s).2) ∧
    ∀ (ds : List Delivery) (s : σ), ∃ counts, counts.length = ds.length ∧
      h.clocked.dispatchAll settings (ds.map (·.event)) (s, clocksOf counts ds) =
        ((h.dispatchTimed settings ds s).1, (h.dispatchTimed settings ds s).2, []) := by
  refine ⟨fun raw s => ?_, fun ds keep s hlength hkeep =>
    hs.dispatchTimed_kept ds keep s hlength hkeep, exists_dispatchAll_clocked settings⟩
  have hstart : s = (s, ([] : List Happening)).1 := rfl
  obtain ⟨hreport, hstate⟩ := h.similar_recording.dispatch settings raw hstart
  exact ⟨hreport.symm, hstate.symm, hs.toQuiet.recorded settings raw s⟩

end Steady

end Host

/-! ## A host to dispatch with -/

/-- Ledgers, and how many effects were fired so far. -/
structure Tally where
  ledgers : Ledgers
  fired : Nat

namespace Tally

/-- Every rate is a hundred, and nothing else is known of any chain. -/
def answers : (q : Question) → q.Answer
  | .owner .. => .ok (default : Address)
  | .supply .. => .ok ((0, 0) : Nat × Nat)
  | .receipt .. => .ok (none : Option Receipt)
  | .rate .. => .ok Decimal.hundred

/-- A host with these answers, where every second effect fails. -/
def host : Host Tally where
  ledgers := Tally.ledgers
  write l s := { s with ledgers := l }
  clock s := (.still .epoch, s)
  answer q s := (answers q, s)
  fire _ s := (s.fired % 2 = 0, { s with fired := s.fired + 1 })

theorem steady_host : host.Steady answers Tally.fired where
  write _ _ := rfl
  clock _ := rfl
  answer _ _ := rfl
  fire _ _ := rfl
  answered _ _ := rfl
  takers_answer _ _ := rfl
  takers_write _ hsame := hsame
  taken e _ hsame := by
    simp only [host, hsame]
    exact ⟨trivial, trivial⟩

/-- An event of no kind, an approval, the same approval again, and a claim. -/
def batch : List Delivery :=
  [⟨⟨"other", "Other", 1, default, none, .obj []⟩, .still .epoch⟩,
   ⟨Traffic.approveAndClaim true, .still .epoch⟩,
   ⟨Traffic.approveAndClaim true, .still .epoch⟩,
   ⟨Traffic.approveAndClaim false, .still .epoch⟩]

theorem isolated_batch :
    (∀ raw s, Host.Recorded raw (host.ledgers s) (host.dispatch ⟨false, 1⟩ raw s).1
      (host.ledgers (host.dispatch ⟨false, 1⟩ raw s).2)
      (host.recording.dispatch ⟨false, 1⟩ raw (s, [])).2.2) ∧
    (host.dispatchTimed ⟨false, 1⟩ (kept [false, true, false, true] batch)
        ⟨sampleLedgers, 0⟩).1 =
      kept [false, true, false, true]
        (host.dispatchTimed ⟨false, 1⟩ batch ⟨sampleLedgers, 0⟩).1 ∧
    (host.dispatchTimed ⟨false, 1⟩ (kept [false, true, false, true] batch)
        ⟨sampleLedgers, 0⟩).2.ledgers =
      (host.dispatchTimed ⟨false, 1⟩ batch ⟨sampleLedgers, 0⟩).2.ledgers ∧
    (host.dispatchTimed ⟨false, 1⟩ batch ⟨sampleLedgers, 0⟩).1.map (·.isApplied) =
      [false, true, false, true] ∧
    ∃ counts, (host.clocked.dispatchAll ⟨false, 1⟩ (batch.map (·.event))
        (⟨sampleLedgers, 0⟩, Host.clocksOf counts batch)).2 =
      ((host.dispatchTimed ⟨false, 1⟩ batch ⟨sampleLedgers, 0⟩).2, []) := by
  obtain ⟨hrecorded, hbatch, hclocked⟩ := steady_host.isolated ⟨false, 1⟩
  obtain ⟨hreports, hledgers⟩ := hbatch batch [false, true, false, true] ⟨sampleLedgers, 0⟩ rfl
    (by decide +kernel)
  obtain ⟨counts, -, hread⟩ := hclocked batch ⟨sampleLedgers, 0⟩
  exact ⟨fun raw s => (hrecorded raw s).2.2, hreports, hledgers, by decide +kernel,
    counts, by rw [hread]⟩

end Tally

end ChainLedger
