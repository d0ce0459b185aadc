import ChainLedger.Proofs.Dispatch.Convergence

/-!
# The owner of a token

Minting a token records the owner that the chain answers, and no other event
writes an owner. A token that is a draft no more is not minted again, so it
keeps the owner that it has, or has none, in whatever follows
(`Traffic.Sound.owner_kept`).

A fractional token fractionalizes the tokens that it lists as it is minted, and
drafts among them. So its minting and that of a token come to the same status in
either order, and in one order only to an owner
(`Host.Answering.owner_of_deliveries`): the one of the two that is delivered
first decides for ever.
-/

namespace ChainLedger

open Collection

variable {answers : (q : Question) → q.Answer} {raw : InboundEvent} {l l' : Ledgers} {clock : Clock}
  {fx : List Effect} {t f : String} {owner : Address} {was : Option Address} {n : NftStatus}
  {x : FnftStatus}

/-! ## Who writes an owner -/

/-- Only a minting writes an owner, and what it mints was a draft. -/
theorem Payload.Writes.revises_owner {p : Payload} {w : Writing} (hw : p.Writes l w)
    (h : w.Between l l') :
    Revises (fun a b => b.owner = a.owner ∨ a.status = .draft) l.nfts l'.nfts := by
  refine h.nfts.revises (fun _ => .inl rfl) fun k hk a t ha => ?_
  cases hw with
  | mintNft hnft hdraft =>
    obtain rfl := eq_of_mem_singleton hnft hk ha
    exact .inr hdraft
  | _ => exact .inl rfl

/-- A token is a draft no more, and this is its owner, if it has one. -/
def Ledgers.Owned (l : Ledgers) (t : String) (owner : Option Address) : Prop :=
  l.nfts.Holds t fun a => a.status ≠ .draft ∧ a.owner = owner

/-- **A token that is a draft no more keeps its owner**, whatever the event. -/
theorem Event.Changes.owner_kept {e : Event} (hl : l.Keyed) (h : e.Changes clock l l' fx)
    (hn : l.Owned t was) : l'.Owned t was := by
  obtain ⟨w, hw, hbetween⟩ := h.writes hl
  obtain ⟨a, ha, hstatus, howner⟩ := hn
  obtain ⟨b, hb, hwritten⟩ := (hw.revises_owner hbetween).still t a ha
  refine ⟨b, hb, ?_, (hwritten.resolve_right hstatus).trans howner⟩
  rcases (h.follows hl).nfts.of_get? ha hb with rfl | ⟨-, hbecomes⟩
  · exact hstatus
  · exact hbecomes.status

/-- And it keeps it in whatever follows. -/
theorem Traffic.Sound.owner_kept {ι : Type} [DecidableEq ι] {raws : ι → InboundEvent}
    {l₀ : Ledgers} {verify : Bool} {u u' : Traffic ι} (hl : l₀.Keyed)
    (h : u.Sound verify raws l₀) (hsteps : Relation.ReflTransGen (Step verify) u u')
    (hn : u.ledgers.Owned t was) : u'.ledgers.Owned t was := by
  refine h.keeps (P := fun l => l.Owned t was) hl (fun hsound happlies hkept => ?_) hsteps hn
  obtain ⟨_, _, hchanges⟩ := happlies.changes
  exact hchanges.owner_kept (hsound.keyed hl) hkept

/-! ## A token and a fractional token that lists it -/

/-- **How far a token and a fractional token that lists it have come**, and who
is recorded as the owner; the asset behind the token is there. -/
structure Ledgers.Reached (l : Ledgers) (t f : String) (n : NftStatus) (x : FnftStatus)
    (owner : Option Address) : Prop where
  nft : l.nfts.Holds t fun a =>
    a.status = n ∧ a.owner = owner ∧ ∃ asset, l.assets.get? a.assetId = some asset
  fnft : l.fnfts.Holds f fun a => a.status = x ∧ t ∈ a.nftIds

namespace Ledgers.Reached

/-- A token waits to be minted as long as it is a draft. -/
theorem open_mint_iff (h : l.Reached t f n x was) : (Move.mint t).Open l ↔ n = .draft := by
  obtain ⟨a, ha, hstatus, -, hasset⟩ := h.nft
  constructor
  · rintro ⟨b, hb, hdraft, -⟩
    obtain rfl := Option.some.inj (ha.symm.trans hb)
    exact hstatus.symm.trans hdraft
  · rintro rfl
    exact ⟨a, ha, hstatus, hasset⟩

/-- So does a fractional token. -/
theorem open_fractionalize_iff {d : Decimal} (h : l.Reached t f n x was) :
    (Move.fractionalize f d).Open l ↔ x = .draft := by
  obtain ⟨a, ha, hstatus, -⟩ := h.fnft
  constructor
  · rintro ⟨b, hb, hdraft⟩
    obtain rfl := Option.some.inj (ha.symm.trans hb)
    exact hstatus.symm.trans hdraft
  · rintro rfl
    exact ⟨a, ha, hstatus⟩

/-- The token is minted, and its owner recorded. -/
theorem mint (h : l.Reached t f n x was) (hmint : TokenRef.mint ⟨t⟩ owner clock l = .ok (l', fx)) :
    l'.Reached t f .minted x (some owner) := by
  have hfollows := TokenRef.follows_mint hmint
  obtain ⟨nft, nfts, assets, hnft, -, hnfts, -, rfl, -⟩ := TokenRef.of_mint hmint
  obtain ⟨a, ha, -, -, asset, hasset⟩ := h.nft
  obtain rfl := Option.some.inj (hnft.symm.trans ha)
  obtain ⟨asset', hasset', -⟩ := hfollows.assets.still _ _ hasset
  exact ⟨(rewrites_update hnfts).holds (List.mem_singleton_self t) hnft fun _ =>
    ⟨rfl, rfl, asset', hasset'⟩, h.fnft⟩

/-- The fractional token is minted and the token fractionalized, whose owner is
whom it was. -/
theorem fractionalize {o : Origin} {p : FnftMinted} {supply : Decimal} (hl : l.Keyed)
    (h : l.Reached t p.fnftId n x was) (hmint : p.mint o supply clock l = .ok (l', fx)) :
    l'.Reached t p.fnftId (advance n .fractionalized) .active was := by
  have hfollows := FnftMinted.follows_mint hmint
  obtain ⟨fnft, fnfts, nfts, assets, hfnft, -, hfnfts, hnfts, -, rfl, -⟩ :=
    FnftMinted.of_mint hmint
  obtain ⟨a, ha, rfl, rfl, asset, hasset⟩ := h.nft
  obtain ⟨b, hb, -, hlisted⟩ := h.fnft
  obtain rfl := Option.some.inj (hfnft.symm.trans hb)
  obtain ⟨asset', hasset', -⟩ := hfollows.assets.still _ _ hasset
  exact ⟨(rewrites_updateMany hl.nfts hnfts).holds hlisted ha fun _ =>
      ⟨rfl, rfl, asset', hasset'⟩,
    (rewrites_update hfnfts).holds (List.mem_singleton_self _) hfnft fun _ => ⟨rfl, hlisted⟩⟩

end Ledgers.Reached

/-! ## Deliveries of the two mintings -/

namespace InboundEvent

/-- **The event mints a token**, of which the chain answers the owner. -/
def Mints (answers : (q : Question) → q.Answer) (t : String) (owner : Address)
    (raw : InboundEvent) : Prop :=
  raw.normalize = .ok (some ⟨raw.origin, .mintNft ⟨t⟩⟩) ∧
    ∃ token, Quantity.tokenId t = .ok token ∧ answers (.owner raw.chain token) = .ok owner

/-- **The event mints a fractional token**, of which the chain answers a
supply. -/
def Fractionalizes (answers : (q : Question) → q.Answer) (f : String) (raw : InboundEvent) :
    Prop :=
  ∃ supply, raw.Makes answers (.fractionalize f supply)

theorem Mints.makes (h : raw.Mints answers t owner) : raw.Makes answers (.mint t) := by
  obtain ⟨hraw, token, htoken, howner⟩ := h
  exact ⟨_, hraw, .mint htoken (congrArg (TokenRef.ownerOr ⟨t⟩) howner)⟩

theorem Mints.not_fractionalizes (h : raw.Mints answers t owner) :
    ¬ raw.Fractionalizes answers f :=
  fun ⟨_, hmakes⟩ => nomatch h.makes.unique hmakes

/-- What makes a move is an event of the asset pipeline. -/
theorem Makes.mem_pipelineEvents {m : Move} (h : raw.Makes answers m) :
    raw.eventName ∈ pipelineEvents := by
  obtain ⟨e, hraw, hmoves⟩ := h
  rw [← event_of_normalize hraw]
  cases hmoves <;> simp [Payload.event, pipelineEvents]

end InboundEvent

namespace Host.Answering

variable {σ : Type} {h : Host σ} {settings : DispatchSettings} {first : InboundEvent}
  {raws rest : List InboundEvent} {s : σ} {m : Move}

/-- A move that is not open is not made. -/
theorem ledgers_dispatch_of_not_open (ha : h.Answering answers) (hl : (h.ledgers s).Keyed)
    (hmakes : raw.Makes answers m) (hclosed : ¬ m.Open (h.ledgers s)) :
    h.ledgers (h.dispatch settings raw s).2 = h.ledgers s := by
  have hturned := ha.turned settings hmakes.mem_pipelineEvents hl
  generalize h.dispatch settings raw s = out at hturned ⊢
  cases hturned with
  | moved hmakes' hopen => exact absurd (hmakes.unique hmakes' ▸ hopen) hclosed
  | stayed hkept => exact hkept

/-- The minting of a draft records the owner that the chain answers. -/
theorem reached_mint (ha : h.Answering answers) (hraw : raw.Mints answers t owner)
    (hr : (h.ledgers s).Reached t f .draft x was)
    (hcalendar : (h.dispatch settings raw s).1.leavesCalendar = false) :
    (h.ledgers (h.dispatch settings raw s).2).Reached t f .minted x (some owner) := by
  obtain ⟨e, hnormal, hmoves⟩ := hraw.makes
  obtain ⟨hmint, token, htoken, howner⟩ := hraw
  obtain rfl := Option.some.inj (Except.ok.inj (hnormal.symm.trans hmint))
  obtain ⟨clock, fx, hx⟩ :=
    ha.outcome_of_dispatch hmint hmoves (hr.open_mint_iff.mpr rfl) hcalendar
  obtain ⟨token', owner', htoken', howner', hx⟩ := Event.of_outcome_mintNft hx
  obtain rfl := Except.ok.inj (htoken.symm.trans htoken')
  obtain rfl : owner = owner' :=
    Except.ok.inj ((congrArg (TokenRef.ownerOr ⟨t⟩) howner).symm.trans howner')
  exact hr.mint hx

/-- The minting of a fractional token that is a draft takes the token along. -/
theorem reached_fractionalize (ha : h.Answering answers) (hl : (h.ledgers s).Keyed)
    (hraw : raw.Fractionalizes answers f) (hr : (h.ledgers s).Reached t f n .draft was)
    (hcalendar : (h.dispatch settings raw s).1.leavesCalendar = false) :
    (h.ledgers (h.dispatch settings raw s).2).Reached t f (advance n .fractionalized) .active
      was := by
  obtain ⟨d, e, hnormal, hmoves⟩ := hraw
  obtain ⟨p, hmint, rfl, -⟩ := InboundEvent.Makes.of_fractionalize ⟨e, hnormal, hmoves⟩
  obtain rfl := Option.some.inj (Except.ok.inj (hnormal.symm.trans hmint))
  obtain ⟨clock, fx, hx⟩ :=
    ha.outcome_of_dispatch hmint hmoves (hr.open_fractionalize_iff.mpr rfl) hcalendar
  obtain ⟨supply, -, hx⟩ := Event.of_outcome_mintFnft hx
  exact hr.fractionalize hl hx

/-! ## Any order -/

/-- Where both were minted, neither is minted again. -/
theorem ledgers_dispatchAll_of_active (ha : h.Answering answers) (hl : (h.ledgers s).Keyed)
    (hr : (h.ledgers s).Reached t f .fractionalized .active was)
    (hraws : ∀ raw ∈ raws, raw.Mints answers t owner ∨ raw.Fractionalizes answers f) :
    h.ledgers (h.dispatchAll settings raws s).2 = h.ledgers s := by
  induction raws generalizing s with
  | nil => rfl
  | cons raw raws ih =>
    rw [List.forall_mem_cons] at hraws
    have hkept : h.ledgers (h.dispatch settings raw s).2 = h.ledgers s := by
      rcases hraws.1 with hmints | ⟨d, hmakes⟩
      · exact ha.ledgers_dispatch_of_not_open hl hmints.makes
          (hr.open_mint_iff.not.mpr (by decide))
      · exact ha.ledgers_dispatch_of_not_open hl hmakes
          (hr.open_fractionalize_iff.not.mpr (by decide))
    exact (ih (hkept ▸ hl) (hkept ▸ hr) hraws.2).trans hkept

/-- Where the token was minted, it stays as it is until the fractional token is. -/
theorem reached_of_minted (ha : h.Answering answers) (hl : (h.ledgers s).Keyed)
    (hr : (h.ledgers s).Reached t f .minted .draft was)
    (hraws : ∀ raw ∈ raws, raw.Mints answers t owner ∨ raw.Fractionalizes answers f)
    (hdelivered : ∃ raw ∈ raws, raw.Fractionalizes answers f)
    (hcalendar : ∀ r ∈ (h.dispatchAll settings raws s).1, r.leavesCalendar = false) :
    (h.ledgers (h.dispatchAll settings raws s).2).Reached t f .fractionalized .active was := by
  -- Mintings of the token leave the ledgers, until the first of the fractional token ends it.
  induction raws generalizing s with
  | nil =>
    obtain ⟨_, hmem, -⟩ := hdelivered
    cases hmem
  | cons raw raws ih =>
    rw [List.forall_mem_cons] at hraws
    simp only [dispatchAll, List.forall_mem_cons] at hcalendar ⊢
    rcases hraws.1 with hmints | hfractionalizes
    · have hkept : h.ledgers (h.dispatch settings raw s).2 = h.ledgers s :=
        ha.ledgers_dispatch_of_not_open hl hmints.makes (hr.open_mint_iff.not.mpr (by decide))
      refine ih (hkept ▸ hl) (hkept ▸ hr) hraws.2 ?_ hcalendar.2
      rw [List.exists_mem_cons_iff] at hdelivered
      exact hdelivered.resolve_left hmints.not_fractionalizes
    · have hreached := ha.reached_fractionalize hl hfractionalizes hr hcalendar.1
      have hkeyed := ha.toQuiet.keyed_dispatch settings raw hl
      rw [ha.ledgers_dispatchAll_of_active hkeyed hreached hraws.2]
      exact hreached

/-- **The first of two mintings decides who the owner is.** The draft of a token
and the draft of a fractional token that lists it are minted, in whatever order
and however often. Both come to be minted; the owner is the one that the chain
answers if the token is minted first, and whoever it was if the fractional token
is. -/
theorem owner_of_deliveries (ha : h.Answering answers) (hl : (h.ledgers s).Keyed)
    (hr : (h.ledgers s).Reached t f .draft .draft was)
    (hraws : ∀ raw ∈ first :: rest, raw.Mints answers t owner ∨ raw.Fractionalizes answers f)
    (hdelivered : ∃ raw ∈ first :: rest, raw.Fractionalizes answers f)
    (hcalendar : ∀ r ∈ (h.dispatchAll settings (first :: rest) s).1, r.leavesCalendar = false) :
    (first.Mints answers t owner →
      (h.ledgers (h.dispatchAll settings (first :: rest) s).2).Reached t f .fractionalized .active
        (some owner)) ∧
    (first.Fractionalizes answers f →
      (h.ledgers (h.dispatchAll settings (first :: rest) s).2).Reached t f .fractionalized .active
        was) := by
  rw [List.forall_mem_cons] at hraws
  rw [List.exists_mem_cons_iff] at hdelivered
  simp only [dispatchAll, List.forall_mem_cons] at hcalendar ⊢
  have hkeyed := ha.toQuiet.keyed_dispatch settings first hl
  constructor
  · intro hmints
    have hreached := ha.reached_mint hmints hr hcalendar.1
    exact ha.reached_of_minted hkeyed hreached hraws.2
      (hdelivered.resolve_left hmints.not_fractionalizes) hcalendar.2
  · intro hfractionalizes
    have hreached := ha.reached_fractionalize hl hfractionalizes hr hcalendar.1
    rw [ha.ledgers_dispatchAll_of_active hkeyed hreached hraws.2]
    exact hreached

end Host.Answering

namespace Tally

theorem reached_pipeline : (pipeline .epoch).Reached "7" "fnft" .draft .draft none :=
  ⟨⟨_, rfl, rfl, rfl, _, rfl⟩, ⟨_, rfl, rfl, List.mem_singleton_self _⟩⟩

theorem mints_mintTwice (b : Bool) : (Traffic.mintTwice b).Mints Tally.answers "7" default :=
  ⟨rfl, 7, rfl, rfl⟩

theorem fractionalizes_sampleMinting : Traffic.sampleMinting.Fractionalizes Tally.answers "fnft" :=
  ⟨_, _, rfl, .fractionalize rfl⟩

theorem owner_of_mintTwice :
    (host.dispatchAll ⟨false, 1⟩
        [Traffic.mintTwice true, Traffic.sampleMinting, Traffic.mintTwice false]
        ⟨pipeline .epoch, 0⟩).1.map (·.isApplied) = [true, true, false] ∧
      (host.dispatchAll ⟨false, 1⟩
        [Traffic.mintTwice true, Traffic.sampleMinting, Traffic.mintTwice false]
        ⟨pipeline .epoch, 0⟩).2.ledgers.Reached "7" "fnft" .fractionalized .active
          (some default) := by
  have hkeyed : (host.ledgers ⟨pipeline .epoch, 0⟩).Keyed := Seed.keyed_ledgers _
  have hcalendar : ∀ r ∈ (host.dispatchAll ⟨false, 1⟩
      [Traffic.mintTwice true, Traffic.sampleMinting, Traffic.mintTwice false]
      ⟨pipeline .epoch, 0⟩).1, r.leavesCalendar = false := by decide +kernel
  have hraws : ∀ raw ∈ [Traffic.mintTwice true, Traffic.sampleMinting, Traffic.mintTwice false],
      raw.Mints Tally.answers "7" default ∨ raw.Fractionalizes Tally.answers "fnft" := by
    simp only [List.forall_mem_cons]
    exact ⟨.inl (mints_mintTwice true), .inr fractionalizes_sampleMinting,
      .inl (mints_mintTwice false), nofun⟩
  have howner := steady_host.answering.owner_of_deliveries hkeyed reached_pipeline hraws
    ⟨_, .tail _ (.head _), fractionalizes_sampleMinting⟩ hcalendar
  exact ⟨by decide +kernel, howner.1 (mints_mintTwice true)⟩

/-- **A token that is overtaken has no owner**: the fractional token that lists
it is minted before it, and the chain answers the owner in vain. -/
theorem unowned_overtaken :
    host.Answering Tally.answers ∧ (pipeline .epoch).Keyed ∧
      (pipeline .epoch).Reached "7" "fnft" .draft .draft none ∧
      Traffic.sampleMinting.Fractionalizes Tally.answers "fnft" ∧
      (Traffic.mintTwice true).Mints Tally.answers "7" default ∧
      (∀ r ∈ (host.dispatchAll ⟨false, 1⟩ [Traffic.sampleMinting, Traffic.mintTwice true]
        ⟨pipeline .epoch, 0⟩).1, r.leavesCalendar = false) ∧
      ¬ (host.dispatchAll ⟨false, 1⟩ [Traffic.sampleMinting, Traffic.mintTwice true]
        ⟨pipeline .epoch, 0⟩).2.ledgers.nfts.Holds "7" (·.owner = some default) := by
  refine ⟨steady_host.answering, Seed.keyed_ledgers _, reached_pipeline,
    fractionalizes_sampleMinting, mints_mintTwice true, by decide +kernel, ?_⟩
  rintro ⟨a, ha, howner⟩
  have hnone : ((host.dispatchAll ⟨false, 1⟩ [Traffic.sampleMinting, Traffic.mintTwice true]
      ⟨pipeline .epoch, 0⟩).2.ledgers.nfts.get? "7").map (·.owner) = some none := by decide +kernel
  rw [ha, Option.map_some, howner] at hnone
  cases hnone

end Tally

end ChainLedger
