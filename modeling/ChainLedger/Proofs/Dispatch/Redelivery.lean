import ChainLedger.Proofs.Dispatch.Sequence
import ChainLedger.Proofs.Transition.Done
import ChainLedger.Proofs.Event.Normal

/-!
# Delivering an event again

An event that was applied may be delivered any number of times more, with its
transaction hash in another spelling. It is of the kind that its name says
(`InboundEvent.event_of_normalize`), so it is done, and whoever dispatches it
again skips it.
-/

namespace ChainLedger

/-! ## Delivering an event again -/

namespace Host

variable {σ : Type} {host : Host σ} {s : σ} {e : Event} {verify : Bool} {r : Skip}

/-- An attempt that is skipped at once reads the clock at most. -/
theorem attempt_of_skips (hclock : host.ledgers (host.clock s).2 = host.ledgers s)
    (h : (e.attempt verify (host.ledgers s)).Skips (host.ledgers s) r) :
    ∃ s', (s' = s ∨ s' = (host.clock s).2) ∧
      host.attempt verify e s = (.error (.skip r), s') := by
  unfold attempt
  generalize e.attempt verify (host.ledgers s) = a at h
  cases h with
  | refuse => exact ⟨s, .inl rfl, rfl⟩
  | @commit c hc =>
    refine ⟨(host.clock s).2, .inr rfl, ?_⟩
    have hrefused : c (host.clock s).1 (host.ledgers (host.clock s).2) = .error (.skip r) := by
      rw [hclock]
      exact hc _
    simp only [run, Host.commit, hrefused]

/-- An event that is skipped is not tried again. -/
theorem dispatch_of_skips {settings : DispatchSettings} {raw : InboundEvent}
    (hraw : raw.normalize = .ok (some e))
    (hclock : host.ledgers (host.clock s).2 = host.ledgers s)
    (h : (e.attempt settings.verifyReceipts (host.ledgers s)).Skips (host.ledgers s) r) :
    ∃ s', (s' = s ∨ s' = (host.clock s).2) ∧
      host.dispatch settings raw s = (.skipped r, s') := by
  obtain ⟨s', hs', hattempt⟩ := attempt_of_skips hclock h
  have hattempts (more : Nat) :
      host.attempts settings.verifyReceipts e more s = (.error (.skip r), s') := by
    cases more with
    | zero => exact hattempt
    | succ more =>
      rw [attempts, hattempt]
      rfl
  refine ⟨s', hs', ?_⟩
  simp only [dispatch, hraw, apply, hattempts, Report.ofRefusal]

end Host

/-- What a log names is done in the ledgers that it yields. -/
theorem Yields.done {ι : Type} {verify : Bool} {raws : ι → InboundEvent} {l₀ l : Ledgers}
    {log : List (Commitment ι)} (hl : l₀.Keyed) (h : Yields verify raws l₀ log l) {i : ι}
    (hi : i ∈ log.map (·.of)) (hkind : (raws i).eventName ∈ onceOnly) :
    ∃ e, (raws i).normalize = .ok (some e) ∧ e.payload.Done e.origin l := by
  induction h with
  | nil => cases hi
  | @snoc log l x e c l' fx hlog hraw hlead hc ih =>
    have hkeyed := (hlog.follows hl).keyed hl
    have hchange : e.Changes x.clock l l' fx := ⟨c, Event.commits_of_leads hlead, hc⟩
    simp only [List.map_append, List.map_cons, List.map_nil, List.mem_append,
      List.mem_singleton] at hi
    rcases hi with hi | rfl
    · obtain ⟨e', hraw', hdone⟩ := ih hi
      exact ⟨e', hraw', hdone.later (hchange.follows hkeyed)⟩
    · exact ⟨e, hraw, hchange.done hkeyed (InboundEvent.event_of_normalize hraw ▸ hkind)⟩

namespace Traffic

variable {ι : Type} [DecidableEq ι] {settings : DispatchSettings} {raws : ι → InboundEvent}
  {l₀ : Ledgers} {t : Traffic ι} {i : ι} {again : InboundEvent} {effects failed : Nat}

/-- **An event that was applied is skipped for ever after.** At any time
after it was reported as applied it is delivered again: under the same name,
with the same metadata, and with a hash of the same value. Any host with the
ledgers of the moment skips it, for a reason that depends on the ledgers
alone, and does nothing beyond reading the clock: the ledgers stay, nothing is
asked, written or fired. -/
theorem redelivered_skipped (hl : l₀.Keyed) (h : Run settings raws l₀ t)
    (hi : t.flights i = .landed (.applied effects failed))
    (hkind : (raws i).eventName ∈ onceOnly) (hname : again.eventName = (raws i).eventName)
    (hmeta : again.metadata = (raws i).metadata)
    (hhash : again.txHash.bind normalHash = (raws i).txHash.bind normalHash)
    (settings' : DispatchSettings) :
    ∃ reason, ∀ (σ : Type) (host : Host σ) (s : σ), host.ledgers s = t.ledgers →
      host.ledgers (host.clock s).2 = t.ledgers →
      ∃ s', host.dispatch settings' again s = (.skipped reason, s') ∧
        host.ledgers s' = t.ledgers ∧ (s' = s ∨ s' = (host.clock s).2) := by
  have hsound := h.sound hl
  have hlogged : i ∈ t.applied := hsound.mem_applied_iff.mpr ⟨effects, failed, hi⟩
  obtain ⟨e, hraw, hdone⟩ := hsound.yields.done hl hlogged hkind
  have horigin : again.origin.txHash = e.origin.txHash := by
    rw [InboundEvent.origin_of_normalize hraw]
    exact hhash
  -- The reason comes from the ledgers alone, before any host is looked at.
  obtain ⟨reason, hskips⟩ := (hdone.of_txHash_eq horigin).skips settings'.verifyReceipts
  refine ⟨reason, fun σ host s hs hclock => ?_⟩
  obtain ⟨s', hs', hdispatch⟩ := Host.dispatch_of_skips
    (InboundEvent.normalize_again hraw hname hmeta) (hclock.trans hs.symm) (hs ▸ hskips)
  refine ⟨s', hdispatch, ?_, hs'⟩
  rcases hs' with rfl | rfl
  · exact hs
  · exact hclock

/-- The minting of a token, and then its redemption. -/
def mintAndRedeem : Bool → InboundEvent
  | true => ⟨"record", "MintNFT", 1, default, some "0xAB", .obj [("tokenId", .str "7")]⟩
  | false => ⟨"record", "RedeemNFT", 1, default, none, .obj [("tokenId", .str "7")]⟩

theorem redelivered_skipped_mintAndRedeem :
    ∃ t, Run ⟨false, 1⟩ mintAndRedeem sampleLedgers t ∧ t.applied = [true, false] ∧
      ∃ reason, ∀ (σ : Type) (host : Host σ) (s : σ), host.ledgers s = t.ledgers →
        host.ledgers (host.clock s).2 = t.ledgers →
        ∃ s', host.dispatch ⟨false, 1⟩ { mintAndRedeem true with txHash := some " 0Xab" } s =
            (.skipped reason, s') ∧
          host.ledgers s' = t.ledgers ∧ (s' = s ∨ s' = (host.clock s).2) := by
  obtain ⟨t, hrun, happlied⟩ :=
    @Host.Quiet.run_of_reports _ _ _ _ mintAndRedeem ⟨false, 1⟩
      ⟨sampleLedgers, [⟨.owner 1 7, .ok (default : Address)⟩], []⟩
      (Rerun.quiet_host fun _ => true) [true, false] (by decide) (fun _ => true)
      (by decide +kernel)
  have hlogged : true ∈ t.applied := by simp [happlied]
  obtain ⟨n, k, hi⟩ := (hrun.sound keyed_sampleLedgers).mem_applied_iff.mp hlogged
  exact ⟨t, hrun, happlied, redelivered_skipped keyed_sampleLedgers hrun hi (by decide) rfl rfl
    (by decide +kernel) ⟨false, 1⟩⟩

end Traffic

end ChainLedger
