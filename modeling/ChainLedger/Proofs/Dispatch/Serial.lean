import ChainLedger.Proofs.Dispatch.Traffic

/-!
# Serializability

Whatever dispatches do at the same time, they could have been alone. The
events that were applied are dispatched again by a host of their own, one
after the other in the order of their commits; it gives each of them the
answers and the readings of the clock that its commit had (`Rerun`). Every one of
them is applied again, and the ledgers are the same.
-/

namespace ChainLedger

/-! ## Dispatching in sequence -/

namespace Host

variable {σ : Type} (h : Host σ) (settings : DispatchSettings)

/-- Events are dispatched from where the ones before them stopped. -/
theorem dispatchAll_append (es es' : List InboundEvent) (s : σ) :
    h.dispatchAll settings (es ++ es') s =
      ((h.dispatchAll settings es s).1 ++
        (h.dispatchAll settings es' (h.dispatchAll settings es s).2).1,
        (h.dispatchAll settings es' (h.dispatchAll settings es s).2).2) := by
  induction es generalizing s with
  | nil => rfl
  | cons e es ih => simp only [List.cons_append, dispatchAll, ih]

theorem dispatchAll_singleton (e : InboundEvent) (s : σ) :
    h.dispatchAll settings [e] s =
      ([(h.dispatch settings e s).1], (h.dispatch settings e s).2) := rfl

end Host

/-! ## Dispatching again -/

/-- What events meet when they are dispatched again: the ledgers, and the
answers and the clocks of commits that are still to be given. -/
structure Rerun where
  ledgers : Ledgers
  told : List Exchange
  clocks : List Clock

namespace Rerun

/-- A question is answered as it was before. One that was not asked then has
no answer. -/
def answer (q : Question) (s : Rerun) : q.Answer × Rerun :=
  match s.told with
  | [] => (.error (.trap .instant), s)
  | x :: rest =>
    if h : x.question = q then (h ▸ x.answer, { s with told := rest })
    else (.error (.trap .instant), s)

/-- **The host that dispatches again**; `takes` says which effects are taken. -/
def host (takes : Effect → Bool) : Host Rerun where
  ledgers := Rerun.ledgers
  write l s := { s with ledgers := l }
  clock s := (s.clocks.headD (.still .epoch), { s with clocks := s.clocks.tail })
  answer := answer
  fire e s := (takes e, s)

variable {takes : Effect → Bool} {l l' : Ledgers} {told told' : List Exchange}
  {clock : Clock} {clocks : List Clock} {a : Attempt} {c : Commit} {fx : List Effect}

/-- An attempt comes to the commit that it came to, and takes no more answers
than it was given then. -/
theorem run_of_leads (h : a.Leads told (.commit c)) :
    (host takes).run a ⟨l, told ++ told', clocks⟩ = (host takes).commit c ⟨l, told', clocks⟩ := by
  generalize hb : Attempt.commit c = b at h
  induction h with
  | here =>
    subst hb
    rfl
  | @hear q next x told b h ih =>
    have hx : (host takes).answer q ⟨l, ⟨q, x⟩ :: told ++ told', clocks⟩ =
        (x, ⟨l, told ++ told', clocks⟩) := by
      simp [host, answer]
    simp only [Host.run, hx]
    exact ih hb

/-- Effects are fired, and nothing else changes. -/
theorem fireAll_snd (fx : List Effect) (s : Rerun) :
    (Effect.fireAll (host takes).fire fx s).2 = s := by
  induction fx generalizing s with
  | nil => rfl
  | cons e fx ih => exact ih s

/-- **An event that was applied is applied again**, from the same ledgers,
with its own answers and its own readings of the clock. -/
theorem dispatch_of_leads {settings : DispatchSettings} {raw : InboundEvent} {e : Event}
    (hraw : raw.normalize = .ok (some e))
    (h : (e.attempt settings.verifyReceipts l).Leads told (.commit c))
    (hc : c clock l = .ok (l', fx)) :
    ∃ k, (host takes).dispatch settings raw ⟨l, told ++ told', clock :: clocks⟩ =
      (.applied fx.length k, ⟨l', told', clocks⟩) := by
  have hattempt :
      (host takes).attempt settings.verifyReceipts e ⟨l, told ++ told', clock :: clocks⟩ =
        (.ok fx, ⟨l', told', clocks⟩) := by
    refine (run_of_leads h).trans ?_
    simp [Host.commit, host, hc]
  -- No conflict, so the number of attempts that are left does not matter.
  have hattempts (more : Nat) :
      (host takes).attempts settings.verifyReceipts e more ⟨l, told ++ told', clock :: clocks⟩ =
        (.ok fx, ⟨l', told', clocks⟩) := by
    cases more with
    | zero => exact hattempt
    | succ more => simp only [Host.attempts, hattempt]
  refine ⟨(Effect.fireAll (host takes).fire fx ⟨l', told', clocks⟩).1, ?_⟩
  simp only [Host.dispatch, hraw, Host.apply, hattempts]
  rw [fireAll_snd]

/-- **A log is dispatched again**: every event is applied, and the ledgers are
those that the log yields. -/
theorem dispatchAll_of_yields {ι : Type} {settings : DispatchSettings} {raws : ι → InboundEvent}
    {l₀ : Ledgers} {log : List (Commitment ι)}
    (h : Yields settings.verifyReceipts raws l₀ log l) (told' : List Exchange)
    (clocks : List Clock) :
    ∃ reports, (∀ r ∈ reports, r.isApplied = true) ∧
      (host takes).dispatchAll settings (log.map fun x => raws x.of)
        ⟨l₀, log.flatMap (·.told) ++ told', log.map (·.clock) ++ clocks⟩ =
          (reports, ⟨l, told', clocks⟩) := by
  -- By induction on the log; what the last commit heard is still to be given after the others.
  induction h generalizing told' clocks with
  | nil => exact ⟨[], by simp, rfl⟩
  | @snoc log l x e c l' fx _ hraw hlead hc ih =>
    obtain ⟨reports, happlied, hlog⟩ := ih (x.told ++ told') (x.clock :: clocks)
    obtain ⟨k, hx⟩ : ∃ k, (host takes).dispatch settings (raws x.of)
        ⟨l, x.told ++ told', x.clock :: clocks⟩ = (.applied fx.length k, ⟨l', told', clocks⟩) :=
      dispatch_of_leads hraw hlead hc
    refine ⟨reports ++ [.applied fx.length k], ?_, ?_⟩
    · intro r hr
      rcases List.mem_append.mp hr with hr | hr
      · exact happlied r hr
      · rw [List.mem_singleton.mp hr]
        rfl
    · simp only [List.map_append, List.map_cons, List.map_nil, List.flatMap_append,
        List.flatMap_cons, List.flatMap_nil, List.append_nil, List.append_assoc, List.cons_append,
        List.nil_append]
      rw [Host.dispatchAll_append, hlog, Host.dispatchAll_singleton, hx]

end Rerun

/-! ## Serializability -/

namespace Traffic

variable {ι : Type} [DecidableEq ι] {settings : DispatchSettings} {raws : ι → InboundEvent}
  {l₀ : Ledgers} {t : Traffic ι}

/-- **Traffic is serializable.** After any run the log names the dispatches
that reported their event as applied, each once. Dispatched alone, one after
the other in the order of the log, these events are all applied again and end
in the same ledgers. Ledgers have every document under its own key from the
start (`Seed.keyed_ledgers`). -/
theorem serializable (takes : Effect → Bool) (hl : l₀.Keyed) (h : Run settings raws l₀ t) :
    t.applied.Nodup ∧ (∀ i, i ∈ t.applied ↔ ∃ n k, t.flights i = .landed (.applied n k)) ∧
      ∃ reports, (∀ r ∈ reports, r.isApplied = true) ∧
        (Rerun.host takes).dispatchAll settings (t.applied.map raws)
          ⟨l₀, t.log.flatMap (·.told), t.log.map (·.clock)⟩ = (reports, ⟨t.ledgers, [], []⟩) := by
  have hsound := h.sound hl
  obtain ⟨reports, happlied, hlog⟩ := Rerun.dispatchAll_of_yields hsound.yields [] []
  refine ⟨hsound.nodup, fun i => hsound.mem_applied_iff, reports, happlied, ?_⟩
  simpa [applied, Function.comp_def] using hlog

/-- The minting of a token, delivered twice. -/
def mintTwice (_ : Bool) : InboundEvent :=
  ⟨"record", "MintNFT", 1, default, none, .obj [("tokenId", .str "7")]⟩

/-- Both deliveries see the token as a draft and hear of its owner; the second
to commit is skipped. -/
theorem run_mintTwice :
    ∃ t, Run ⟨false, 1⟩ mintTwice sampleLedgers t ∧ t.applied = [true] ∧
      t.flights false = .landed (.skipped (.nftMinted "7")) := by
  have h : Run ⟨false, 1⟩ mintTwice sampleLedgers (start _ _ _) := .refl
  have h := h.tail (@Step.look _ _ _ _ true _ _ rfl)
  have h := h.tail (@Step.look _ _ _ _ false _ _ rfl)
  have h := h.tail (@Step.hear _ _ _ _ true _ _ _ (.owner 1 7) _ rfl (.ok (default : Address)))
  have h := h.tail (@Step.hear _ _ _ _ false _ _ _ (.owner 1 7) _ rfl (.ok (default : Address)))
  have h := h.tail (@Step.commit _ _ _ _ true _ _ _ _ (.still .epoch) _ _ 0 rfl rfl (Nat.zero_le _))
  have h := h.tail (@Step.refuse _ _ _ _ false _ _ _ _ (.still .epoch) _ rfl rfl)
  exact ⟨_, h, rfl, rfl⟩

theorem serializable_mintTwice :
    ∃ t, Run ⟨false, 1⟩ mintTwice sampleLedgers t ∧ t.applied = [true] ∧
      ∃ reports, (∀ r ∈ reports, r.isApplied = true) ∧
        (Rerun.host fun _ => true).dispatchAll ⟨false, 1⟩ (t.applied.map mintTwice)
          ⟨sampleLedgers, t.log.flatMap (·.told), t.log.map (·.clock)⟩ =
            (reports, ⟨t.ledgers, [], []⟩) := by
  obtain ⟨t, hrun, happlied, -⟩ := run_mintTwice
  obtain ⟨-, -, hreports⟩ := serializable (fun _ => true) keyed_sampleLedgers hrun
  exact ⟨t, hrun, happlied, hreports⟩

end Traffic

end ChainLedger
