import ChainLedger.Proofs.Dispatch.Isolation
import ChainLedger.Proofs.Dispatch.Moment
import ChainLedger.Proofs.Event.Normal
import ChainLedger.Proofs.Transition.Outcome

/-!
# The asset pipeline converges

Events that take assets through their pipeline may overtake each other and may
be delivered again. Where answers depend on what is asked alone
(`Host.Answering`), the order makes no difference (`Host.Answering.converges`):
in whatever order they are dispatched, the ledgers end where the moves bring
them that were open at the start (`brought_dispatchAll`). A dispatch makes the
move of its event, or finds that it was overtaken, and either way the ledgers
are where that move brings them too (`brought_dispatch`).

The one thing that order can change is how often a document is written, and so
its watermark. A move is lost where that would leave the calendar; such an event
is refused with a trap, and ledgers that are that late do not converge
(`diverges_late`).
-/

namespace ChainLedger

open Collection

/-! ## Where answers depend on what is asked -/

namespace Host

variable {σ : Type} {h : Host σ} {answers : (q : Question) → q.Answer} {settings : DispatchSettings}
  {raw : InboundEvent} {raws raws' : List InboundEvent} {s s' : σ}

/-- **Answers depend on what is asked alone.** -/
structure Answering (h : Host σ) (answers : (q : Question) → q.Answer) : Prop extends h.Quiet where
  answered : ∀ q s, (h.answer q s).1 = answers q

theorem Steady.answering {τ : Type} {takers : σ → τ} (hs : h.Steady answers takers) :
    h.Answering answers :=
  { hs.toQuiet with answered := hs.answered }

/-- **What was carried out**: an outcome at some readings of the clock, written
if it is no refusal. -/
inductive Carried (h : Host σ) (x : Clock → Except Refusal (Ledgers × List Effect)) (s : σ) :
    Except Refusal (List Effect) × σ → Prop
  | written (clock : Clock) {l : Ledgers} {fx : List Effect} {s' : σ} (hx : x clock = .ok (l, fx))
      (hl : h.ledgers s' = l) : Carried h x s (.ok fx, s')
  | refused (clock : Clock) {r : Refusal} {s' : σ} (hx : x clock = .error r)
      (hl : h.ledgers s' = h.ledgers s) : Carried h x s (.error r, s')

/-- What was carried out from later on, where the ledgers were the same. -/
theorem Carried.of_ledgers_eq {x : Clock → Except Refusal (Ledgers × List Effect)}
    {out : Except Refusal (List Effect) × σ} (hl : h.ledgers s' = h.ledgers s)
    (hcarried : h.Carried x s' out) : h.Carried x s out := by
  cases hcarried with
  | written clock hx hout => exact .written clock hx hout
  | refused clock hx hout => exact .refused clock hx (hout.trans hl)

namespace Answering

theorem carried_run (ha : h.Answering answers) (a : Attempt) (s : σ) :
    h.Carried (fun clock => do let c ← a.resolve answers; c clock (h.ledgers s)) s (h.run a s) := by
  induction a generalizing s with
  | refuse r => exact .refused (h.clock s).1 rfl rfl
  | ask q next ih =>
    have hnext := ih (h.answer q s).1 (h.answer q s).2
    rw [ha.answer q s] at hnext
    simp only [run, Attempt.resolve, ← ha.answered q s]
    exact hnext.of_ledgers_eq (ha.answer q s)
  | commit c =>
    simp only [run, Host.commit]
    have hl := ha.clock s
    cases hc : c (h.clock s).1 (h.ledgers (h.clock s).2) with
    | ok out => exact .written (h.clock s).1 (hl ▸ hc) (ha.write _ _)
    | error r => exact .refused (h.clock s).1 (hl ▸ hc) hl

/-- Attempts after conflicts have the same outcome to come to. -/
theorem carried_attempts (ha : h.Answering answers) (verify : Bool) (e : Event) (more : Nat)
    (s : σ) :
    h.Carried (fun clock => e.outcome answers verify clock (h.ledgers s)) s
      (h.attempts verify e more s) := by
  induction more generalizing s with
  | zero => exact ha.carried_run (e.attempt verify (h.ledgers s)) s
  | succ more ih =>
    have hattempt := ha.carried_run (e.attempt verify (h.ledgers s)) s
    rw [attempts, attempt]
    generalize h.run (e.attempt verify (h.ledgers s)) s = out at hattempt
    cases hattempt with
    | written clock hx hl => exact .written clock hx hl
    | @refused clock r s' hx hl =>
      simp only
      split
      · have hagain := ih s'
        rw [hl] at hagain
        exact hagain.of_ledgers_eq hl
      · exact .refused clock hx hl

end Answering

end Host

/-! ## One dispatch -/

/-- The move that an event makes as it is delivered. -/
def InboundEvent.Makes (answers : (q : Question) → q.Answer) (raw : InboundEvent) (m : Move) :
    Prop :=
  ∃ e, raw.normalize = .ok (some e) ∧ e.Moves answers m

theorem InboundEvent.Makes.unique {answers : (q : Question) → q.Answer} {raw : InboundEvent}
    {m m' : Move} (h : raw.Makes answers m) (h' : raw.Makes answers m') : m = m' := by
  obtain ⟨e, he, hm⟩ := h
  obtain ⟨e', he', hm'⟩ := h'
  obtain rfl := Option.some.inj (Except.ok.inj (he.symm.trans he'))
  exact hm.unique hm'

/-- The event was refused because a watermark would leave the calendar. -/
def Report.leavesCalendar : Report → Bool
  | .failed (.trap .instant) => true
  | _ => false

/-- The names of the events that take an asset through its pipeline. -/
def pipelineEvents : List String := ["MintNFT", "MintFNFT", "CreateIAOEvent", "DepositNFT"]

theorem isPipeline_of_event {p : Payload} (h : p.event ∈ pipelineEvents) : p.isPipeline = true := by
  cases p with
  | mintNft => rfl
  | mintFnft => rfl
  | createOffering => rfl
  | depositNft => rfl
  | _ => exact absurd h (by simp only [Payload.event]; decide)

namespace Host

variable {σ : Type} {h : Host σ} {answers : (q : Question) → q.Answer} {settings : DispatchSettings}
  {raw : InboundEvent} {raws raws' : List InboundEvent} {s s' : σ} {l₀ : Ledgers} {S : Move → Prop}

/-- **What became of an event of the asset pipeline**: it made its move, which
was open, or the ledgers are as they were. A move that was open is lost only
where a watermark would leave the calendar. -/
inductive Turned (h : Host σ) (answers : (q : Question) → q.Answer) (raw : InboundEvent) (s : σ) :
    Report × σ → Prop
  | moved {n k m s'} (hm : raw.Makes answers m) (hopen : m.Open (h.ledgers s))
      (hb : (h.ledgers s).Brought (· = m) (h.ledgers s')) :
      Turned h answers raw s (.applied n k, s')
  | stayed {r s'} (hl : h.ledgers s' = h.ledgers s)
      (hclosed : r.leavesCalendar = false → ∀ m, raw.Makes answers m → ¬ m.Open (h.ledgers s)) :
      Turned h answers raw s (r, s')

namespace Answering

/-- **A dispatch comes to what its event does** at some readings of the clock. -/
theorem dispatch_cases (ha : h.Answering answers) (settings : DispatchSettings) {e : Event}
    (hraw : raw.normalize = .ok (some e)) (s : σ) :
    ∃ clock,
      (∃ fx k, e.outcome answers settings.verifyReceipts clock (h.ledgers s) =
          .ok (h.ledgers (h.dispatch settings raw s).2, fx) ∧
        (h.dispatch settings raw s).1 = .applied fx.length k) ∨
      ∃ r, e.outcome answers settings.verifyReceipts clock (h.ledgers s) = .error r ∧
        h.ledgers (h.dispatch settings raw s).2 = h.ledgers s ∧
        (h.dispatch settings raw s).1 = .ofRefusal r := by
  have hcarried := ha.carried_attempts settings.verifyReceipts e settings.maxConflictRetries s
  simp only [dispatch, hraw, apply]
  generalize h.attempts settings.verifyReceipts e settings.maxConflictRetries s = out
    at hcarried ⊢
  cases hcarried with
  | @written clock l fx s' hx hwritten =>
    refine ⟨clock, .inl ⟨fx, _, ?_, rfl⟩⟩
    rw [ha.ledgers_fireAll, hwritten]
    exact hx
  | refused clock hx hkept => exact ⟨clock, .inr ⟨_, hx, hkept, rfl⟩⟩

/-- **A move that is open is made**, unless a watermark would leave the
calendar. -/
theorem outcome_of_dispatch (ha : h.Answering answers) {e : Event} {m : Move}
    (hraw : raw.normalize = .ok (some e)) (hmoves : e.Moves answers m)
    (hopen : m.Open (h.ledgers s))
    (hcalendar : (h.dispatch settings raw s).1.leavesCalendar = false) :
    ∃ clock fx, e.outcome answers settings.verifyReceipts clock (h.ledgers s) =
      .ok (h.ledgers (h.dispatch settings raw s).2, fx) := by
  obtain ⟨clock, ⟨fx, k, hx, -⟩ | ⟨r, hx, -, hreport⟩⟩ := ha.dispatch_cases settings hraw s
  · exact ⟨clock, fx, hx⟩
  · obtain rfl := Event.eq_trap_of_open hmoves hopen hx
    rw [hreport] at hcalendar
    cases hcalendar

/-- **Every dispatch makes its move or leaves the ledgers.** -/
theorem turned (ha : h.Answering answers) (settings : DispatchSettings)
    (hname : raw.eventName ∈ pipelineEvents) (hl : (h.ledgers s).Keyed) :
    h.Turned answers raw s (h.dispatch settings raw s) := by
  cases hraw : raw.normalize with
  | error r =>
    simp only [dispatch, hraw]
    refine .stayed rfl ?_
    rintro - m ⟨e, he, -⟩
    cases hraw.symm.trans he
  | ok found =>
    cases found with
    | none =>
      simp only [dispatch, hraw]
      refine .stayed rfl ?_
      rintro - m ⟨e, he, -⟩
      cases hraw.symm.trans he
    | some e =>
      have hpipeline : e.payload.isPipeline = true :=
        isPipeline_of_event (InboundEvent.event_of_normalize hraw ▸ hname)
      have hcases := ha.dispatch_cases settings hraw s
      generalize h.dispatch settings raw s = out at hcases ⊢
      obtain ⟨report, s'⟩ := out
      obtain ⟨clock, ⟨fx, k, hx, rfl⟩ | ⟨r, hx, hkept, rfl⟩⟩ := hcases
      · obtain ⟨m, hm, hopen, hb⟩ := Event.brought_of_outcome hl hpipeline hx
        exact .moved ⟨e, hraw, hm⟩ hopen hb
      · refine .stayed hkept ?_
        rintro hr m ⟨e', he', hm⟩ hopen
        obtain rfl := Option.some.inj (Except.ok.inj (hraw.symm.trans he'))
        obtain rfl := Event.eq_trap_of_open hm hopen hx
        cases hr

/-- **A dispatch brings the ledgers where the move of its event does**, if the
move was open at the start: it makes the move, or the move was overtaken. -/
theorem brought_dispatch (ha : h.Answering answers) (hl : l₀.Keyed)
    (hb : l₀.Brought S (h.ledgers s)) (hname : raw.eventName ∈ pipelineEvents)
    (hone : ∀ k d d', S (.fractionalize k d) → raw.Makes answers (.fractionalize k d') → d = d')
    (hcalendar : (h.dispatch settings raw s).1.leavesCalendar = false) :
    l₀.Brought (fun m => S m ∨ (raw.Makes answers m ∧ m.Open l₀))
      (h.ledgers (h.dispatch settings raw s).2) := by
  have hturned := ha.turned settings hname (hb.follows.keyed hl)
  generalize h.dispatch settings raw s = out at hturned hcalendar ⊢
  by_cases hmove : ∃ m, raw.Makes answers m ∧ m.Open l₀
  · obtain ⟨m, hm, hopen⟩ := hmove
    have hstep : (h.ledgers s).Brought (· = m) (h.ledgers out.2) := by
      cases hturned with
      | moved hm' _ hstep => rwa [hm.unique hm']
      | stayed hkept hclosed =>
        rw [hkept]
        refine hb.overtaken hopen (hclosed hcalendar m hm) ?_
        rintro k d d' rfl hd'
        exact (hone k d' d hd' hm).symm
    refine (hb.trans hstep ?_).congr fun m' => or_congr_right ⟨?_, fun hm' => hm'.1.unique hm⟩
    · rintro k d d' hd rfl
      exact hone k d d' hd hm
    · rintro rfl
      exact ⟨hm, hopen⟩
  · have hkept : h.ledgers out.2 = h.ledgers s := by
      cases hturned with
      | moved hm hopen => exact absurd ⟨_, hm, hb.open_of_open hopen⟩ hmove
      | stayed hkept => exact hkept
    rw [hkept]
    exact hb.congr fun m => ⟨.inl, fun hm => hm.resolve_right fun hm => hmove ⟨m, hm⟩⟩

/-! ## Runs -/

/-- **A run brings the ledgers where its moves do** that were open at the
start, whatever the order. -/
theorem brought_dispatchAll (ha : h.Answering answers) (hl : l₀.Keyed)
    (hb : l₀.Brought S (h.ledgers s)) (hnames : ∀ raw ∈ raws, raw.eventName ∈ pipelineEvents)
    (hone : ∀ k d d',
      (S (.fractionalize k d) ∨ ∃ raw ∈ raws, raw.Makes answers (.fractionalize k d)) →
      (∃ raw ∈ raws, raw.Makes answers (.fractionalize k d')) → d = d')
    (hcalendar : ∀ r ∈ (h.dispatchAll settings raws s).1, r.leavesCalendar = false) :
    l₀.Brought (fun m => S m ∨ ((∃ raw ∈ raws, raw.Makes answers m) ∧ m.Open l₀))
      (h.ledgers (h.dispatchAll settings raws s).2) := by
  -- The moves of the events so far are among `S`, and those of the rest are added to them.
  induction raws generalizing s S with
  | nil => exact hb.congr fun m => by simp
  | cons raw raws ih =>
    rw [List.forall_mem_cons] at hnames
    simp only [dispatchAll, List.forall_mem_cons] at hcalendar ⊢
    have hfirst := ha.brought_dispatch hl hb hnames.1
      (fun k d d' hd hd' => hone k d d' (.inl hd) ⟨raw, .head _, hd'⟩) hcalendar.1
    refine (ih hfirst hnames.2 ?_ hcalendar.2).congr fun m => ?_
    · rintro k d d' ((hd | hd) | ⟨other, hmem, hd⟩) ⟨other', hmem', hd'⟩
      · exact hone k d d' (.inl hd) ⟨other', .tail _ hmem', hd'⟩
      · exact hone k d d' (.inr ⟨raw, .head _, hd.1⟩) ⟨other', .tail _ hmem', hd'⟩
      · exact hone k d d' (.inr ⟨other, .tail _ hmem, hd⟩) ⟨other', .tail _ hmem', hd'⟩
    · rw [or_assoc, ← or_and_right, List.exists_mem_cons_iff]

end Answering

end Host

/-! ## Convergence -/

/-- **Every fractional token has one contract**: events that mint the same one
name the same address on the same chain. -/
def OneContract (raws : List InboundEvent) : Prop :=
  ∀ raw ∈ raws, ∀ raw' ∈ raws, ∀ p p',
    raw.normalize = .ok (some ⟨raw.origin, .mintFnft p⟩) →
    raw'.normalize = .ok (some ⟨raw'.origin, .mintFnft p'⟩) →
    p.fnftId = p'.fnftId → p.tokenAddress = p'.tokenAddress ∧ raw.chain = raw'.chain

theorem OneContract.subset {raws raws' : List InboundEvent} (h : OneContract raws)
    (hsub : raws' ⊆ raws) : OneContract raws' :=
  fun raw hmem raw' hmem' => h raw (hsub hmem) raw' (hsub hmem')

/-- A fractional token is minted by its event, with the supply that its
contract answers. -/
theorem InboundEvent.Makes.of_fractionalize {answers : (q : Question) → q.Answer}
    {raw : InboundEvent} {k : String} {d : Decimal}
    (h : raw.Makes answers (.fractionalize k d)) :
    ∃ p, raw.normalize = .ok (some ⟨raw.origin, .mintFnft p⟩) ∧ p.fnftId = k ∧
      FnftMinted.supply (answers (.supply raw.chain p.tokenAddress)) = .ok d := by
  obtain ⟨e, hraw, hmoves⟩ := h
  generalize hm : Move.fractionalize k d = m at hmoves
  cases hmoves with
  | @fractionalize o p supply hsupply =>
    cases hm
    obtain rfl : o = raw.origin := InboundEvent.origin_of_normalize hraw
    exact ⟨p, hraw, rfl, hsupply⟩
  | _ => cases hm

/-- A fractional token that has one contract is minted with one supply. -/
theorem OneContract.supply_eq {answers : (q : Question) → q.Answer} {raws : List InboundEvent}
    (h : OneContract raws) {k : String} {d d' : Decimal}
    (hd : ∃ raw ∈ raws, raw.Makes answers (.fractionalize k d))
    (hd' : ∃ raw ∈ raws, raw.Makes answers (.fractionalize k d')) : d = d' := by
  obtain ⟨raw, hmem, hmakes⟩ := hd
  obtain ⟨raw', hmem', hmakes'⟩ := hd'
  obtain ⟨p, hraw, hid, hsupply⟩ := hmakes.of_fractionalize
  obtain ⟨p', hraw', hid', hsupply'⟩ := hmakes'.of_fractionalize
  obtain ⟨haddress, hchain⟩ := h raw hmem raw' hmem' p p' hraw hraw' (hid.trans hid'.symm)
  rw [haddress, hchain, hsupply'] at hsupply
  exact (Except.ok.inj hsupply).symm

namespace Host.Answering

variable {σ : Type} {h : Host σ} {answers : (q : Question) → q.Answer} {settings : DispatchSettings}
  {raws raws' : List InboundEvent} {s s' : σ}

/-- A run from its start. -/
theorem brought (ha : h.Answering answers) (hl : (h.ledgers s).Keyed)
    (hnames : ∀ raw ∈ raws, raw.eventName ∈ pipelineEvents) (hone : OneContract raws)
    (hcalendar : ∀ r ∈ (h.dispatchAll settings raws s).1, r.leavesCalendar = false) :
    (h.ledgers s).Brought
      (fun m => (∃ raw ∈ raws, raw.Makes answers m) ∧ m.Open (h.ledgers s))
      (h.ledgers (h.dispatchAll settings raws s).2) := by
  have hstart : (h.ledgers s).Brought (fun _ => False) (h.ledgers s) := .refl _ fun _ => id
  refine (ha.brought_dispatchAll hl hstart hnames ?_ hcalendar).congr fun m => by simp
  rintro k d d' (hd | hd) hd'
  · exact hd.elim
  · exact hone.supply_eq hd hd'

/-- **The asset pipeline converges.** Events that take assets through their
pipeline, with duplicates and overtaking, are dispatched in two orders from the
same ledgers; every fractional token is minted from one contract, and in neither
order is an event refused because a watermark would leave the calendar. Then the
ledgers agree on the status of every token, the status and the custody of every
asset, the status and the supplies of every fractional token and the status of
every offering on its chain. -/
theorem converges (ha : h.Answering answers) (hl : (h.ledgers s).Keyed)
    (hs : h.ledgers s' = h.ledgers s) (hperm : raws.Perm raws')
    (hnames : ∀ raw ∈ raws, raw.eventName ∈ pipelineEvents) (hone : OneContract raws)
    (hcalendar : ∀ r ∈ (h.dispatchAll settings raws s).1, r.leavesCalendar = false)
    (hcalendar' : ∀ r ∈ (h.dispatchAll settings raws' s').1, r.leavesCalendar = false) :
    (h.ledgers (h.dispatchAll settings raws s).2).Agree
      (h.ledgers (h.dispatchAll settings raws' s').2) := by
  have hbrought := ha.brought hl hnames hone hcalendar
  have hbrought' := ha.brought (s := s') (hs ▸ hl)
    (fun raw hraw => hnames raw (hperm.mem_iff.mpr hraw)) (hone.subset hperm.symm.subset) hcalendar'
  rw [hs] at hbrought'
  -- The moves that were open at the start are those of the same events.
  simp only [← hperm.mem_iff] at hbrought'
  exact hbrought.agree hbrought'

end Host.Answering

namespace Tally

/-- The start of a pipeline, where the asset was last written at an instant. -/
def pipeline (updatedAt : Instant) : Ledgers :=
  Seed.ledgers
    { assets := [⟨"asset", "owner", .iaoApproved, .inReview, updatedAt⟩]
      nfts := [⟨"7", "asset", .draft, none, none, .epoch⟩]
      fnfts := [⟨"fnft", none, ["7"], .draft, .zero, .zero, .epoch⟩]
      offerings := [{ sampleOffering with onChainStatus := .draft }] }

/-- The asset is handed over. -/
def handedOver : InboundEvent :=
  ⟨"custody", "DepositNFT", 1, default, none, .obj [("assetId", .str "asset")]⟩

/-- The offering is created. -/
def offered : InboundEvent :=
  ⟨"offering", "CreateIAOEvent", 1, default, none, .obj [("iaoEventId", .str "offering")]⟩

/-- The offering overtakes the fractional token, that overtakes the token, and
the token is minted twice. -/
def overtaking : List InboundEvent :=
  [offered, Traffic.sampleMinting, Traffic.mintTwice true, handedOver, Traffic.mintTwice false]

/-- One event alone mints a fractional token. -/
theorem oneContract_overtaking : OneContract overtaking := by
  have honly : ∀ raw ∈ overtaking, ∀ p,
      raw.normalize = .ok (some ⟨raw.origin, .mintFnft p⟩) → raw = Traffic.sampleMinting := by
    intro raw hmem p hraw
    have hname : "MintFNFT" = raw.eventName := InboundEvent.event_of_normalize hraw
    simp only [overtaking, List.mem_cons, List.not_mem_nil, or_false] at hmem
    rcases hmem with rfl | rfl | rfl | rfl | rfl
    · exact absurd hname (by decide)
    · rfl
    · exact absurd hname (by decide)
    · exact absurd hname (by decide)
    · exact absurd hname (by decide)
  intro raw hmem raw' hmem' p p' hraw hraw' _
  obtain rfl := honly raw hmem p hraw
  obtain rfl := honly raw' hmem' p' hraw'
  cases hraw.symm.trans hraw'
  exact ⟨rfl, rfl⟩

theorem converges_overtaking :
    (host.ledgers (host.dispatchAll ⟨false, 1⟩ overtaking ⟨pipeline .epoch, 0⟩).2).Agree
      (host.ledgers (host.dispatchAll ⟨false, 1⟩ overtaking.reverse ⟨pipeline .epoch, 0⟩).2) ∧
    ((host.dispatchAll ⟨false, 1⟩ overtaking ⟨pipeline .epoch, 0⟩).2.ledgers.assets.get?
      "asset").map Asset.status = some .iaoEvent ∧
    (host.dispatchAll ⟨false, 1⟩ overtaking ⟨pipeline .epoch, 0⟩).1.map (·.isApplied) =
      [true, true, false, false, false] ∧
    (host.dispatchAll ⟨false, 1⟩ overtaking.reverse ⟨pipeline .epoch, 0⟩).1.map (·.isApplied) =
      [true, true, false, true, true] :=
  ⟨steady_host.answering.converges (Seed.keyed_ledgers _) rfl overtaking.reverse_perm.symm
      (by decide) oneContract_overtaking (by decide +kernel) (by decide +kernel),
    by decide +kernel, by decide +kernel, by decide +kernel⟩

/-- Two microseconds before the end of the calendar, so that a document can be
written once more. -/
def late : Instant := ⟨Instant.lastSecond, 999998000, by decide⟩

/-- **Ledgers do not converge at the end of the calendar**: the event that comes
second is refused, whichever it is. -/
theorem diverges_late :
    host.Answering answers ∧ (pipeline late).Keyed ∧
    [Traffic.mintTwice true, handedOver].Perm [handedOver, Traffic.mintTwice true] ∧
    (∀ raw ∈ [Traffic.mintTwice true, handedOver], raw.eventName ∈ pipelineEvents) ∧
    OneContract [Traffic.mintTwice true, handedOver] ∧
    ¬ (host.ledgers (host.dispatchAll ⟨false, 1⟩ [Traffic.mintTwice true, handedOver]
        ⟨pipeline late, 0⟩).2).Agree
      (host.ledgers (host.dispatchAll ⟨false, 1⟩ [handedOver, Traffic.mintTwice true]
        ⟨pipeline late, 0⟩).2) := by
  refine ⟨steady_host.answering, Seed.keyed_ledgers _, .swap _ _ [], by decide,
    oneContract_overtaking.subset (by simp [overtaking]), fun hagree => ?_⟩
  exact absurd (hagree.assets "asset") (by decide +kernel)

end Tally

end ChainLedger
