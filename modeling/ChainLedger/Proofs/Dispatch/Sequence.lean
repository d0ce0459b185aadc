import ChainLedger.Proofs.Dispatch.Serial

/-!
# Dispatching in sequence is traffic

A host is quiet if nothing but its own writes changes the ledgers. What a
quiet host does when it dispatches events in the order of their delivery is
one of the runs of traffic, with the same reports and the same ledgers; so
whatever holds after every run holds after it (`Host.Quiet.run_dispatchAll`).
-/

namespace ChainLedger

/-- **Nothing but a write changes the ledgers**, and a write is read back. -/
structure Host.Quiet {σ : Type} (h : Host σ) : Prop where
  write : ∀ l s, h.ledgers (h.write l s) = l
  clock : ∀ s, h.ledgers (h.clock s).2 = h.ledgers s
  answer : ∀ q s, h.ledgers (h.answer q s).2 = h.ledgers s
  fire : ∀ e s, h.ledgers (h.fire e s).2 = h.ledgers s

/-- The host that dispatches again is quiet. -/
theorem Rerun.quiet_host (takes : Effect → Bool) : (host takes).Quiet where
  write _ _ := rfl
  clock _ := rfl
  answer q s := by
    show (answer q s).2.ledgers = s.ledgers
    unfold answer
    split
    · rfl
    · split <;> rfl
  fire _ _ := rfl

/-- At most all effects fail. -/
theorem Effect.fireAll_fst_le {σ : Type} (fire : Effect → σ → Bool × σ) (fx : List Effect)
    (s : σ) : (fireAll fire fx s).1 ≤ fx.length := by
  induction fx generalizing s with
  | nil => exact Nat.le_refl 0
  | cons e fx ih =>
    have hrest := ih (fire e s).2
    simp only [fireAll, List.length_cons]
    split <;> omega

namespace Flight

/-- The dispatch has ended with its event applied. -/
def isApplied : Flight → Bool
  | .landed r => r.isApplied
  | _ => false

theorem isApplied_refused (e : Event) (more : Nat) (r : Refusal) :
    (refused e more r).isApplied = false := by
  unfold refused
  split
  · exact Report.isApplied_ofRefusal r
  · split
    · rfl
    · exact Report.isApplied_ofRefusal r

end Flight

namespace Traffic

variable {ι : Type} [DecidableEq ι] {verify : Bool} {t t' t'' : Traffic ι} {i : ι}
  {f f' : Flight} {l l' : Ledgers}

/-- **Traffic in which one dispatch moved**: it stands somewhere else, and the
others stand where they stood. -/
structure Moved (verify : Bool) (i : ι) (t : Traffic ι) (f : Flight) (l : Ledgers)
    (t' : Traffic ι) : Prop where
  steps : Relation.ReflTransGen (Step verify) t t'
  flight : t'.flights i = f
  others : ∀ j, j ≠ i → t'.flights j = t.flights j
  ledgers : t'.ledgers = l
  applied : t'.applied = t.applied ++ if f.isApplied then [i] else []

theorem Moved.refl (h : t.flights i = f) (hf : f.isApplied = false) (hl : t.ledgers = l) :
    Moved verify i t f l t :=
  ⟨.refl, h, fun _ _ => rfl, hl, by simp [hf]⟩

/-- A dispatch that has not ended moves on. -/
theorem Moved.trans (h : Moved verify i t f l t') (hf : f.isApplied = false)
    (h' : Moved verify i t' f' l' t'') : Moved verify i t f' l' t'' where
  steps := h.steps.trans h'.steps
  flight := h'.flight
  others j hj := (h'.others j hj).trans (h.others j hj)
  ledgers := h'.ledgers
  applied := by
    have happlied : t'.applied = t.applied := by simpa [hf] using h.applied
    rw [h'.applied, happlied]

/-- One step of a dispatch without a write. -/
theorem Moved.of_step (hstep : Step verify t (t.move i f)) (hf : f.isApplied = false)
    (hl : t.ledgers = l) : Moved verify i t f l (t.move i f) where
  steps := .single hstep
  flight := flights_move_self t i f
  others _ hj := flights_move_of_ne t f hj
  ledgers := hl
  applied := by simp [hf, Traffic.applied, move]

/-- The step of a dispatch that commits. -/
theorem Moved.of_commit {e : Event} {more failed : Nat} {told : List Exchange} {c : Commit}
    {clock : Clock} {fx : List Effect} (h : t.flights i = .underWay e more told (.commit c))
    (hc : c clock t.ledgers = .ok (l, fx)) (hf : failed ≤ fx.length) :
    Moved verify i t (.landed (.applied fx.length failed)) l
      (t.land ⟨i, told, clock⟩ l fx.length failed) where
  steps := .single (.commit h hc hf)
  flight := flights_land_self t ⟨i, told, clock⟩ l _ _
  others _ hj := flights_land_of_ne t l _ _ hj
  ledgers := rfl
  applied := applied_land t ⟨i, told, clock⟩ l _ _

end Traffic

namespace Host.Quiet

open Traffic

variable {σ : Type} {h : Host σ} {ι : Type} [DecidableEq ι] {raws : ι → InboundEvent}
  {settings : DispatchSettings} {verify : Bool} {s : σ} {t : Traffic ι} {i : ι} {e : Event}

theorem ledgers_fireAll (hq : h.Quiet) (fx : List Effect) (s : σ) :
    h.ledgers (Effect.fireAll h.fire fx s).2 = h.ledgers s := by
  induction fx generalizing s with
  | nil => rfl
  | cons e fx ih => exact (ih _).trans (hq.fire e s)

/-- **Where an outcome takes a dispatch**: it lands if there are effects, with
any number of them failing, and stands where its refusal leaves it otherwise. -/
def Ends (h : Host σ) (verify : Bool) (i : ι) (t : Traffic ι) (refused : Refusal → Flight) :
    Except Refusal (List Effect) × σ → Prop
  | (.ok fx, s) => ∀ failed, failed ≤ fx.length →
    ∃ t', Moved verify i t (.landed (.applied fx.length failed)) (h.ledgers s) t'
  | (.error r, s) => ∃ t', Moved verify i t (refused r) (h.ledgers s) t'

theorem Ends.head {f : Flight} {l : Ledgers} {t' : Traffic ι} {refused : Refusal → Flight}
    {out : Except Refusal (List Effect) × σ} (hm : Moved verify i t f l t')
    (hf : f.isApplied = false) (ho : Ends h verify i t' refused out) :
    Ends h verify i t refused out := by
  obtain ⟨result, s⟩ := out
  cases result with
  | ok fx =>
    intro failed hfailed
    obtain ⟨t'', ht''⟩ := ho failed hfailed
    exact ⟨t'', hm.trans hf ht''⟩
  | error r =>
    obtain ⟨t'', ht''⟩ := ho
    exact ⟨t'', hm.trans hf ht''⟩

/-- **An attempt that is carried through** is traffic. -/
theorem ends_run (hq : h.Quiet) (a : Attempt) {more : Nat} {told : List Exchange}
    (hi : t.flights i = .underWay e more told a) (hl : t.ledgers = h.ledgers s) :
    Ends h verify i t (.refused e more) (h.run a s) := by
  induction a generalizing t s told with
  | refuse r => exact ⟨_, .of_step (.giveUp hi) (Flight.isApplied_refused e more r) hl⟩
  | ask q next ih =>
    have hhear : Moved verify i t _ _ _ := .of_step (.hear hi (h.answer q s).1) rfl hl
    exact .head hhear rfl
      (ih _ hhear.flight (hhear.ledgers.trans (hq.answer q s).symm))
  | commit c =>
    have hledgers : h.ledgers (h.clock s).2 = t.ledgers := (hq.clock s).trans hl.symm
    simp only [run, Host.commit, hledgers]
    cases hc : c (h.clock s).1 t.ledgers with
    | ok out =>
      intro failed hfailed
      rw [hq.write]
      exact ⟨_, .of_commit hi hc hfailed⟩
    | error r =>
      exact ⟨_, .of_step (.refuse hi hc) (Flight.isApplied_refused e more r) hledgers.symm⟩

/-- One attempt is traffic, from where it looks. -/
theorem ends_attempt (hq : h.Quiet) {more : Nat} (hi : t.flights i = .ready e more)
    (hl : t.ledgers = h.ledgers s) :
    Ends h verify i t (.refused e more) (h.attempt verify e s) := by
  have hlook : Moved verify i t _ _ _ := .of_step (.look hi) rfl hl
  rw [hl] at hlook
  exact .head hlook rfl (hq.ends_run _ hlook.flight hlook.ledgers)

/-- **Attempts after conflicts** are traffic, as many as are made. -/
theorem ends_attempts (hq : h.Quiet) (more : Nat) (hi : t.flights i = .ready e more)
    (hl : t.ledgers = h.ledgers s) :
    Ends h verify i t (fun r => .landed (.ofRefusal r)) (h.attempts verify e more s) := by
  induction more generalizing t s with
  | zero => exact hq.ends_attempt hi hl
  | succ more ih =>
    have hattempt : Ends h verify i t _ (h.attempt verify e s) := hq.ends_attempt hi hl
    rw [attempts]
    generalize h.attempt verify e s = out at hattempt ⊢
    obtain ⟨result, s'⟩ := out
    cases result with
    | ok fx => exact hattempt
    | error r =>
      obtain ⟨t', ht'⟩ := hattempt
      simp only
      -- After a conflict the dispatch is ready again, where the rest of the attempts start.
      by_cases hretry : r.isRetryable = true
      · rw [if_pos hretry]
        rw [show Flight.refused e (more + 1) r = .ready e more from if_pos hretry] at ht'
        exact .head ht' rfl (ih ht'.flight ht'.ledgers)
      · rw [if_neg hretry]
        rw [show Flight.refused e (more + 1) r = .landed (.ofRefusal r) from if_neg hretry] at ht'
        exact ⟨t', ht'⟩

/-- **A dispatch is traffic** from its start to its report. -/
theorem moved_dispatch (hq : h.Quiet) (hi : t.flights i = .start settings (raws i))
    (hl : t.ledgers = h.ledgers s) :
    ∃ t', Moved settings.verifyReceipts i t (.landed (h.dispatch settings (raws i) s).1)
      (h.ledgers (h.dispatch settings (raws i) s).2) t' := by
  unfold Flight.start at hi
  unfold dispatch
  cases hraw : (raws i).normalize with
  | error r =>
    rw [hraw] at hi
    exact ⟨t, .refl hi (Report.isApplied_ofRefusal r) hl⟩
  | ok found =>
    rw [hraw] at hi
    cases found with
    | none => exact ⟨t, .refl hi rfl hl⟩
    | some e =>
      have hends : Ends h settings.verifyReceipts i t _ _ := hq.ends_attempts _ hi hl
      simp only [apply]
      generalize h.attempts settings.verifyReceipts e settings.maxConflictRetries s = out at hends ⊢
      obtain ⟨result, s'⟩ := out
      cases result with
      | ok fx =>
        simp only
        rw [hq.ledgers_fireAll]
        exact hends _ (Effect.fireAll_fst_le h.fire fx s')
      | error r => exact hends

/-- Dispatches in the order of their delivery are traffic. -/
theorem steps_dispatchAll (hq : h.Quiet) {is : List ι} (hn : is.Nodup)
    (hi : ∀ i ∈ is, t.flights i = .start settings (raws i)) (hl : t.ledgers = h.ledgers s) :
    ∃ t', Relation.ReflTransGen (Step settings.verifyReceipts) t t' ∧
      is.map t'.flights = (h.dispatchAll settings (is.map raws) s).1.map .landed ∧
      (∀ j, j ∉ is → t'.flights j = t.flights j) ∧
      t'.ledgers = h.ledgers (h.dispatchAll settings (is.map raws) s).2 ∧
      t'.applied = t.applied ++ is.filter fun i => (t'.flights i).isApplied := by
  induction is generalizing t s with
  | nil => exact ⟨t, .refl, rfl, fun _ _ => rfl, hl, by simp⟩
  | cons i is ih =>
    obtain ⟨hfirst, hn⟩ := List.nodup_cons.mp hn
    obtain ⟨t₁, ht₁⟩ := hq.moved_dispatch (hi i (.head _)) hl
    -- The first dispatch moved none of the others, so they are still where they start.
    have hrest : ∀ j ∈ is, t₁.flights j = .start settings (raws j) := by
      intro j hj
      have hne : j ≠ i := fun heq => hfirst (heq ▸ hj)
      rw [ht₁.others j hne, hi j (.tail _ hj)]
    obtain ⟨t', hsteps, hreports, hothers, hledgers, happlied⟩ := ih hn hrest ht₁.ledgers
    have hi' : t'.flights i = .landed (h.dispatch settings (raws i) s).1 :=
      (hothers i hfirst).trans ht₁.flight
    refine ⟨t', ht₁.steps.trans hsteps, ?_, ?_, hledgers, ?_⟩
    · simp only [List.map_cons, dispatchAll, hi', hreports]
    · intro j hj
      rw [List.mem_cons, not_or] at hj
      rw [hothers j hj.2, ht₁.others j hj.1]
    · rw [happlied, ht₁.applied, List.filter_cons, hi']
      split <;> simp [*]

/-- **Dispatching in the order of delivery is one of the runs of traffic**,
with the same reports, the same ledgers, and the applied events in the order
of their delivery. -/
theorem run_dispatchAll (hq : h.Quiet) {is : List ι} (hn : is.Nodup) :
    ∃ t, Run settings raws (h.ledgers s) t ∧
      is.map t.flights = (h.dispatchAll settings (is.map raws) s).1.map .landed ∧
      t.ledgers = h.ledgers (h.dispatchAll settings (is.map raws) s).2 ∧
      t.applied = is.filter fun i => (t.flights i).isApplied := by
  obtain ⟨t, hrun, hreports, -, hledgers, happlied⟩ :=
    hq.steps_dispatchAll (t := start settings raws (h.ledgers s)) hn (fun _ _ => rfl) rfl
  exact ⟨t, hrun, hreports, hledgers, happlied⟩

/-- The run of a host whose reports are known. -/
theorem run_of_reports (hq : h.Quiet) {is : List ι} (hn : is.Nodup) {p : ι → Bool}
    (hp : (h.dispatchAll settings (is.map raws) s).1.map (·.isApplied) = is.map p) :
    ∃ t, Run settings raws (h.ledgers s) t ∧ t.applied = is.filter p := by
  obtain ⟨t, hrun, hreports, -, happlied⟩ := hq.run_dispatchAll hn
  have hflights : is.map (fun i => (t.flights i).isApplied) = is.map p := by
    have hmap := congrArg (List.map Flight.isApplied) hreports
    rw [List.map_map, List.map_map] at hmap
    exact hmap.trans hp
  refine ⟨t, hrun, happlied.trans (List.filter_congr fun i hi => ?_)⟩
  exact List.map_inj_left.mp hflights i hi

end Host.Quiet

end ChainLedger
