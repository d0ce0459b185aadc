import ChainLedger.Proofs.Transition.Route
import ChainLedger.Dispatch
import Mathlib.Logic.Function.Basic
import Mathlib.Logic.Relation

/-!
# Many dispatches at once

Any number of events are dispatched at the same time. Each dispatch looks at
the ledgers, hears answers, and commits; between any two of these steps the
others may do anything (`Traffic.Step`). Only a commit is atomic. Answers and
clock readings are arbitrary, and after a conflict a dispatch looks again as
often as the settings allow.

`Traffic.Sound` is the invariant: the log of the commits that went through
yields the ledgers of the moment, each of its commits come to from the
ledgers right before it, and the log is about the dispatches reported as
applied, each of them once.
-/

namespace ChainLedger

/-- The event was applied. -/
def Report.isApplied : Report → Bool
  | .applied .. => true
  | _ => false

theorem Report.isApplied_ofRefusal (r : Refusal) : (ofRefusal r).isApplied = false := by
  cases r <;> rfl

theorem Report.isApplied_iff {r : Report} : r.isApplied = true ↔ ∃ n k, r = .applied n k := by
  cases r <;> simp [isApplied]

/-! ## Flights -/

/-- Where a dispatch stands. -/
inductive Flight
  /-- It is about to look at the ledgers, and may do so again so many times. -/
  | ready (e : Event) (more : Nat)
  /-- It was told so much, and the rest of its attempt is ahead of it. -/
  | underWay (e : Event) (more : Nat) (told : List Exchange) (rest : Attempt)
  /-- It has ended with a report. -/
  | landed (r : Report)

namespace Flight

/-- Where the dispatch of an event starts. -/
def start (settings : DispatchSettings) (raw : InboundEvent) : Flight :=
  match raw.normalize with
  | .error r => .landed (.ofRefusal r)
  | .ok none => .landed .ignored
  | .ok (some e) => .ready e settings.maxConflictRetries

/-- Where a refusal leaves a dispatch: ready again after a conflict, as long
as it may. -/
def refused (e : Event) (more : Nat) (r : Refusal) : Flight :=
  match more with
  | 0 => .landed (.ofRefusal r)
  | more + 1 => if r.isRetryable then .ready e more else .landed (.ofRefusal r)

end Flight

/-- A commit that went through: of which dispatch, after which answers, and
at which readings of the clock. -/
structure Commitment (ι : Type) where
  of : ι
  told : List Exchange
  clock : Clock

/-- **Dispatches in the air**, the ledgers of the moment, and the commits
that went through so far. -/
structure Traffic (ι : Type) where
  ledgers : Ledgers
  flights : ι → Flight
  log : List (Commitment ι)

namespace Traffic

variable {ι : Type}

/-- Every event is about to be dispatched. -/
def start (settings : DispatchSettings) (raws : ι → InboundEvent) (l : Ledgers) : Traffic ι where
  ledgers := l
  flights i := .start settings (raws i)
  log := []

/-- The dispatches with an applied event, in the order of their commits. -/
def applied (t : Traffic ι) : List ι := t.log.map (·.of)

variable [DecidableEq ι]

/-- One dispatch moves on. -/
def move (t : Traffic ι) (i : ι) (f : Flight) : Traffic ι :=
  { t with flights := Function.update t.flights i f }

@[simp] theorem flights_move_self (t : Traffic ι) (i : ι) (f : Flight) :
    (t.move i f).flights i = f :=
  Function.update_self ..

theorem flights_move_of_ne (t : Traffic ι) (f : Flight) {i j : ι} (h : j ≠ i) :
    (t.move i f).flights j = t.flights j :=
  Function.update_of_ne h ..

/-- One dispatch ends with its event applied, and its commit enters the log. -/
def land (t : Traffic ι) (x : Commitment ι) (l : Ledgers) (n failed : Nat) : Traffic ι where
  ledgers := l
  flights := Function.update t.flights x.of (.landed (.applied n failed))
  log := t.log ++ [x]

@[simp] theorem flights_land_self (t : Traffic ι) (x : Commitment ι) (l : Ledgers)
    (n failed : Nat) : (t.land x l n failed).flights x.of = .landed (.applied n failed) :=
  Function.update_self ..

theorem flights_land_of_ne (t : Traffic ι) {x : Commitment ι} (l : Ledgers) (n failed : Nat)
    {j : ι} (h : j ≠ x.of) : (t.land x l n failed).flights j = t.flights j :=
  Function.update_of_ne h ..

@[simp] theorem applied_land (t : Traffic ι) (x : Commitment ι) (l : Ledgers) (n failed : Nat) :
    (t.land x l n failed).applied = t.applied ++ [x.of] := by
  simp [applied, land]

/-- **One step of one dispatch.** `verify` asks for receipts where money
moves. -/
inductive Step (verify : Bool) : Traffic ι → Traffic ι → Prop
  /-- It looks at the ledgers. -/
  | look {t i e more} (h : t.flights i = .ready e more) :
      Step verify t (t.move i (.underWay e more [] (e.attempt verify t.ledgers)))
  /-- It hears any answer to its question. -/
  | hear {t i e more told q next} (h : t.flights i = .underWay e more told (.ask q next))
      (x : q.Answer) : Step verify t (t.move i (.underWay e more (told ++ [⟨q, x⟩]) (next x)))
  /-- Its attempt is refused. -/
  | giveUp {t i e more told r} (h : t.flights i = .underWay e more told (.refuse r)) :
      Step verify t (t.move i (.refused e more r))
  /-- Its commit is refused, and nothing is written. -/
  | refuse {t i e more told c clock r} (h : t.flights i = .underWay e more told (.commit c))
      (hc : c clock t.ledgers = .error r) : Step verify t (t.move i (.refused e more r))
  /-- Its commit goes through; some of its effects may fail. -/
  | commit {t i e more told c clock l fx failed}
      (h : t.flights i = .underWay e more told (.commit c)) (hc : c clock t.ledgers = .ok (l, fx))
      (hf : failed ≤ fx.length) :
      Step verify t (t.land ⟨i, told, clock⟩ l fx.length failed)

/-- **Runs**: any number of steps, interleaved in any way. -/
def Run (settings : DispatchSettings) (raws : ι → InboundEvent) (l₀ : Ledgers) (t : Traffic ι) :
    Prop :=
  Relation.ReflTransGen (Step settings.verifyReceipts) (start settings raws l₀) t

end Traffic

/-! ## What a log yields -/

/-- **The ledgers that a log yields**: each of its commits was come to from
the ledgers before it. -/
inductive Yields {ι : Type} (verify : Bool) (raws : ι → InboundEvent) (l₀ : Ledgers) :
    List (Commitment ι) → Ledgers → Prop
  | nil : Yields verify raws l₀ [] l₀
  | snoc {log l x e c l' fx} (hlog : Yields verify raws l₀ log l)
      (hraw : (raws x.of).normalize = .ok (some e))
      (hlead : (e.attempt verify l).Leads x.told (.commit c))
      (hc : c x.clock l = .ok (l', fx)) : Yields verify raws l₀ (log ++ [x]) l'

/-- A log yields later ledgers. -/
theorem Yields.follows {ι : Type} {verify : Bool} {raws : ι → InboundEvent} {l₀ l : Ledgers}
    {log : List (Commitment ι)} (hl : l₀.Keyed) (h : Yields verify raws l₀ log l) :
    l₀.Follows l := by
  induction h with
  | nil => exact .refl l₀
  | snoc _ _ hlead hc ih =>
    exact ih.trans (Event.Changes.follows (ih.keyed hl) ⟨_, Event.commits_of_leads hlead, hc⟩)

/-! ## The invariant -/

/-- **What holds of a dispatch** at any time: what it saw is from an earlier
moment, and it is in the log if and only if it ended with its event applied. -/
inductive Flight.Fits (verify : Bool) (raw : InboundEvent) (l : Ledgers) (logged : Prop) :
    Flight → Prop
  | ready {e more} (hraw : raw.normalize = .ok (some e)) (hlog : ¬ logged) :
      Fits verify raw l logged (.ready e more)
  | underWay {e more told rest seen} (hraw : raw.normalize = .ok (some e)) (hlog : ¬ logged)
      (hkeyed : seen.Keyed) (hseen : seen.Follows l)
      (hlead : (e.attempt verify seen).Leads told rest) :
      Fits verify raw l logged (.underWay e more told rest)
  | landed {r} (h : logged ↔ r.isApplied = true) : Fits verify raw l logged (.landed r)

namespace Flight

variable {verify : Bool} {raw : InboundEvent} {l l' : Ledgers} {logged logged' : Prop} {f : Flight}
  {e : Event} {more : Nat} {r : Refusal}

theorem fits_start (settings : DispatchSettings) (hlog : ¬ logged) :
    (start settings raw).Fits verify raw l logged := by
  unfold start
  split
  · exact .landed (by simp [hlog, Report.isApplied_ofRefusal])
  · exact .landed (by simp [hlog, Report.isApplied])
  · next hraw => exact .ready hraw hlog

theorem fits_refused (hraw : raw.normalize = .ok (some e)) (hlog : ¬ logged) :
    (refused e more r).Fits verify raw l logged := by
  have hlanded : (landed (.ofRefusal r)).Fits verify raw l logged :=
    .landed (by simp [hlog, Report.isApplied_ofRefusal])
  unfold refused
  split
  · exact hlanded
  · split
    · exact .ready hraw hlog
    · exact hlanded

/-- What holds of a dispatch still holds when the ledgers move on. -/
theorem Fits.mono (h : f.Fits verify raw l logged) (hl : l.Follows l') (hlog : logged ↔ logged') :
    f.Fits verify raw l' logged' := by
  cases h with
  | ready hraw hn => exact .ready hraw (hlog.not.mp hn)
  | underWay hraw hn hkeyed hseen hlead =>
    exact .underWay hraw (hlog.not.mp hn) hkeyed (hseen.trans hl) hlead
  | landed h => exact .landed (hlog.symm.trans h)

end Flight

namespace Traffic

variable {ι : Type} {settings : DispatchSettings} {raws : ι → InboundEvent} {l₀ : Ledgers}
  {verify : Bool} {t t' : Traffic ι}

/-- **The invariant of traffic.** -/
structure Sound (verify : Bool) (raws : ι → InboundEvent) (l₀ : Ledgers) (t : Traffic ι) :
    Prop where
  yields : Yields verify raws l₀ t.log t.ledgers
  nodup : t.applied.Nodup
  fits : ∀ i, (t.flights i).Fits verify (raws i) t.ledgers (i ∈ t.applied)

theorem sound_start : (start settings raws l₀).Sound verify raws l₀ where
  yields := .nil
  nodup := List.nodup_nil
  fits _ := Flight.fits_start settings List.not_mem_nil

/-- The log is about the dispatches that reported their event as applied. -/
theorem Sound.mem_applied_iff {i : ι} (h : t.Sound verify raws l₀) :
    i ∈ t.applied ↔ ∃ n k, t.flights i = .landed (.applied n k) := by
  have hfits := h.fits i
  generalize t.flights i = f at hfits
  cases hfits with
  | ready _ hlog => simp [hlog]
  | underWay _ hlog => simp [hlog]
  | landed hr => simp [hr, Report.isApplied_iff]

/-- A dispatch that is ready is about an event, and not in the log. -/
theorem Sound.of_ready {i : ι} {e : Event} {more : Nat} (h : t.Sound verify raws l₀)
    (hi : t.flights i = .ready e more) :
    (raws i).normalize = .ok (some e) ∧ i ∉ t.applied := by
  have hfits := h.fits i
  rw [hi] at hfits
  cases hfits with
  | ready hraw hlog => exact ⟨hraw, hlog⟩

/-- A dispatch that is under way saw ledgers of an earlier moment, and came
from there to where it stands. -/
theorem Sound.of_underWay {i : ι} {e : Event} {more : Nat} {told : List Exchange} {rest : Attempt}
    (h : t.Sound verify raws l₀) (hi : t.flights i = .underWay e more told rest) :
    (raws i).normalize = .ok (some e) ∧ i ∉ t.applied ∧
      ∃ seen : Ledgers, seen.Keyed ∧ seen.Follows t.ledgers ∧
        (e.attempt verify seen).Leads told rest := by
  have hfits := h.fits i
  rw [hi] at hfits
  cases hfits with
  | underWay hraw hlog hkeyed hseen hlead => exact ⟨hraw, hlog, _, hkeyed, hseen, hlead⟩

/-- **A commit that goes through** is one that the ledgers of the moment lead
to, whatever its dispatch saw. -/
theorem Sound.leads_of_commit {i : ι} {e : Event} {more : Nat} {told : List Exchange} {c : Commit}
    {clock : Clock} {l : Ledgers} {fx : List Effect} (h : t.Sound verify raws l₀)
    (hi : t.flights i = .underWay e more told (.commit c)) (hc : c clock t.ledgers = .ok (l, fx)) :
    (raws i).normalize = .ok (some e) ∧ i ∉ t.applied ∧
      (e.attempt verify t.ledgers).Leads told (.commit c) := by
  obtain ⟨hraw, hlog, seen, hseen, hf, hlead⟩ := h.of_underWay hi
  -- The read may be stale by now; the commit would be come to from these ledgers too.
  have hfresh : e.attempt verify t.ledgers = e.attempt verify seen :=
    Event.attempt_eq_of_commit hseen hf (Event.commits_of_leads hlead) hc
  exact ⟨hraw, hlog, hfresh ▸ hlead⟩

variable [DecidableEq ι]

/-- A dispatch that moves on without writing leaves the others alone. -/
theorem Sound.move {i : ι} {f : Flight} (h : t.Sound verify raws l₀)
    (hf : f.Fits verify (raws i) t.ledgers (i ∈ t.applied)) :
    (t.move i f).Sound verify raws l₀ := by
  refine ⟨h.yields, h.nodup, fun j => ?_⟩
  by_cases hj : j = i
  · rw [hj, flights_move_self]
    exact hf
  · rw [flights_move_of_ne t f hj]
    exact h.fits j

/-- **What a step does to the ledgers**: nothing, or it is the commit of an
event from the ledgers of the moment. -/
theorem Sound.step_cases (h : t.Sound verify raws l₀) (hstep : Step verify t t') :
    (t'.ledgers = t.ledgers ∧ t'.log = t.log) ∨
      ∃ x e c fx, t'.log = t.log ++ [x] ∧ (raws x.of).normalize = .ok (some e) ∧
        (e.attempt verify t.ledgers).Leads x.told (.commit c) ∧
        c x.clock t.ledgers = .ok (t'.ledgers, fx) := by
  cases hstep with
  | look | hear | giveUp | refuse => exact .inl ⟨rfl, rfl⟩
  | @commit i e more told c clock l fx failed hi hc =>
    obtain ⟨hraw, -, hlead⟩ := h.leads_of_commit hi hc
    exact .inr ⟨⟨i, told, clock⟩, e, c, fx, rfl, hraw, hlead, hc⟩

/-- **Every step keeps the invariant.** -/
theorem Sound.step (hl : l₀.Keyed) (h : t.Sound verify raws l₀) (hstep : Step verify t t') :
    t'.Sound verify raws l₀ := by
  have hkeyed : t.ledgers.Keyed := (h.yields.follows hl).keyed hl
  cases hstep with
  | @look i e more hi =>
    obtain ⟨hraw, hlog⟩ := h.of_ready hi
    exact h.move (.underWay hraw hlog hkeyed (.refl _) .here)
  | @hear i e more told q next hi x =>
    obtain ⟨hraw, hlog, seen, hseen, hf, hlead⟩ := h.of_underWay hi
    exact h.move (.underWay hraw hlog hseen hf (hlead.snoc x))
  | @giveUp i e more told r hi =>
    obtain ⟨hraw, hlog, -⟩ := h.of_underWay hi
    exact h.move (Flight.fits_refused hraw hlog)
  | @refuse i e more told c clock r hi hc =>
    obtain ⟨hraw, hlog, -⟩ := h.of_underWay hi
    exact h.move (Flight.fits_refused hraw hlog)
  | @commit i e more told c clock l fx failed hi hc =>
    obtain ⟨hraw, hlog, hlead⟩ := h.leads_of_commit hi hc
    have hchange := Event.Changes.follows hkeyed ⟨c, Event.commits_of_leads hlead, hc⟩
    refine ⟨.snoc h.yields hraw hlead hc, ?_, fun j => ?_⟩
    · rw [applied_land, ← List.concat_eq_append]
      exact h.nodup.concat hlog
    · by_cases hj : j = i
      · subst hj
        rw [flights_land_self t ⟨j, told, clock⟩]
        exact .landed (by simp [Report.isApplied])
      · rw [flights_land_of_ne t _ _ _ hj]
        exact (h.fits j).mono hchange (by simp [hj])

/-- Any number of steps keep the invariant. -/
theorem Sound.steps (hl : l₀.Keyed) (h : t.Sound verify raws l₀)
    (hsteps : Relation.ReflTransGen (Step verify) t t') : t'.Sound verify raws l₀ := by
  induction hsteps with
  | refl => exact h
  | tail _ hstep ih => exact ih.step hl hstep

/-- **Every run keeps the invariant.** -/
theorem Run.sound (hl : l₀.Keyed) (h : Run settings raws l₀ t) :
    t.Sound settings.verifyReceipts raws l₀ :=
  sound_start.steps hl h

/-- **An event was applied by one of the steps**, the one after which it is in
the log. -/
theorem Run.exists_step {i : ι} (h : Run settings raws l₀ t) (hi : i ∈ t.applied) :
    ∃ u u', Run settings raws l₀ u ∧ Step settings.verifyReceipts u u' ∧
      Relation.ReflTransGen (Step settings.verifyReceipts) u' t ∧
      u'.applied = u.applied ++ [i] := by
  induction h with
  | refl => cases hi
  | @tail u u' hrun hstep ih =>
    by_cases hu : i ∈ u.applied
    · obtain ⟨v, v', hv, hvv', hv', happlied⟩ := ih hu
      exact ⟨v, v', hv, hvv', hv'.tail hstep, happlied⟩
    · refine ⟨u, u', hrun, hstep, .refl, ?_⟩
      cases hstep with
      | look | hear | giveUp | refuse => exact absurd hi hu
      | @commit j _ _ told _ clock l fx failed =>
        rw [applied_land] at hi ⊢
        have hij : i = j := by simpa [hu] using hi
        rw [hij]

end Traffic

/-! ## Ledgers to start from -/

/-- An offering on its chain: a hundred units at a commission of fifteen
percent. -/
def sampleOffering : Offering where
  id := "offering"
  fnftId := "fnft"
  beneficiaryId := "owner"
  bdId := none
  currency := default
  status := .active
  onChainStatus := .onChain
  totalSupply := .hundred
  availableSupply := .hundred
  soldValue := .zero
  vaultType := .nonVault
  unlockThreshold := .zero
  registrationStart := .epoch
  registrationEnd := .epoch
  participationStart := .epoch
  participationEnd := .epoch
  revenue :=
    { status := .pending
      platformRate := (Decimal.ofParts? 15 0).getD .zero
      bdRate := .zero
      finalizedBy := none
      finalizedOn := none
      approvedTransactions := []
      platformCommission := .zero }
  updatedAt := .epoch

/-- A token to be minted with its asset, an offering with its fractional
token, and a request of the owner for eighty-five. -/
def sampleLedgers : Ledgers :=
  Seed.ledgers
    { assets := [⟨"asset", "owner", .convertedToNft, .fractor, .epoch⟩]
      nfts := [⟨"7", "asset", .draft, none, none, .epoch⟩]
      fnfts := [⟨"fnft", none, [], .active, .hundred, .hundred, .epoch⟩]
      offerings := [sampleOffering]
      withdrawals := [⟨"request", "owner", .requesting,
        [⟨default, ["offering"], (Decimal.ofParts? 85 0).getD .zero, none⟩], default, .epoch⟩] }

theorem keyed_sampleLedgers : sampleLedgers.Keyed := Seed.keyed_ledgers _

end ChainLedger
