import ChainLedger.Proofs.Dispatch.Lifecycle

/-!
# How long a redemption lasts

A token that is redeemed stays redeemed, and so do its asset and the custody,
as far as all kinds of events but one are concerned. The deactivation of a
fractional token takes back every token that it lists and every asset behind
them, whatever became of them since (`Payload.Releases`). So a redemption
lasts until the token is released, two redemptions of one token have a release
between them (`Redemptions` collects this), and a token that is released may be
redeemed again. Custody alone is redeemed for good.
-/

namespace ChainLedger

open Collection

/-! ## Releases -/

/-- The event deactivates an active fractional token that lists a token. -/
def Payload.Releases (l : Ledgers) (k : String) (p : Payload) : Prop :=
  ∃ q fnft, p = .deactivateFnft q ∧ l.fnfts.get? q.fnftId = some fnft ∧ fnft.status = .active ∧
    k ∈ fnft.nftIds

/-- The event releases a token that an asset is behind. -/
def Payload.ReleasesAsset (l : Ledgers) (k : String) (p : Payload) : Prop :=
  ∃ x n, p.Releases l x ∧ l.nfts.get? x = some n ∧ n.assetId = k

/-- The token under a key is redeemed. -/
def Ledgers.Redeemed (l : Ledgers) (k : String) : Prop :=
  l.nfts.Holds k (·.status = .redeemed)

/-- The asset under a key is redeemed. -/
def Ledgers.RedeemedAsset (l : Ledgers) (k : String) : Prop :=
  l.assets.Holds k (·.status = .redeemed)

/-- The asset under a key is out of custody, redeemed. -/
def Ledgers.RedeemedCustody (l : Ledgers) (k : String) : Prop :=
  l.assets.Holds k (·.custody = .redeemed)

theorem NftStatus.eq_redeemed {s : NftStatus}
    (h : Pipeline.place NftStatus.redeemed ≤ Pipeline.place s) : s = .redeemed := by
  cases s <;> first | rfl | exact absurd h (by decide)

theorem AssetStatus.eq_redeemed {s : AssetStatus}
    (h : Pipeline.place AssetStatus.redeemed ≤ Pipeline.place s) : s = .redeemed := by
  cases s <;> first | rfl | exact absurd h (by decide)

theorem CustodyStatus.eq_redeemed {s : CustodyStatus}
    (h : Pipeline.place CustodyStatus.redeemed ≤ Pipeline.place s) : s = .redeemed := by
  cases s <;> first | rfl | exact absurd h (by decide)

namespace Event.Edges

variable {e : Event} {l l' : Ledgers} {k : String}

/-- **A token stays redeemed** unless the event releases it. -/
theorem redeemed (h : e.Edges l l') (hk : l.Redeemed k) (hnot : ¬ e.payload.Releases l k) :
    l'.Redeemed k := by
  by_cases hp : ∃ q, e.payload = .deactivateFnft q
  · obtain ⟨q, hq⟩ := hp
    obtain ⟨fnft, hfnft, hactive, hstay, -⟩ := h.deactivated q hq
    have hunlisted : k ∉ fnft.nftIds := fun hk => hnot ⟨q, fnft, hq, hfnft, hactive, hk⟩
    obtain ⟨n, hn, hredeemed⟩ := hk
    exact ⟨n, (hstay k hunlisted).trans hn, hredeemed⟩
  · refine (h.nfts (not_exists.mp hp)).still.holds (fun hab ha => ?_) hk
    exact NftStatus.eq_redeemed (ha ▸ hab)

/-- **An asset stays redeemed** unless the event releases it. -/
theorem redeemedAsset (h : e.Edges l l') (hk : l.RedeemedAsset k)
    (hnot : ¬ e.payload.ReleasesAsset l k) : l'.RedeemedAsset k := by
  by_cases hp : ∃ q, e.payload = .deactivateFnft q
  · obtain ⟨q, hq⟩ := hp
    obtain ⟨fnft, hfnft, hactive, -, hstay⟩ := h.deactivated q hq
    have hapart : k ∉ l.assetsBehind fnft.nftIds := fun hk => by
      obtain ⟨x, hx, n, hn, hid⟩ := Ledgers.mem_assetsBehind.mp hk
      exact hnot ⟨x, n, ⟨q, fnft, hq, hfnft, hactive, hx⟩, hn, hid⟩
    obtain ⟨a, ha, hredeemed⟩ := hk
    exact ⟨a, (hstay k hapart).trans ha, hredeemed⟩
  · refine (h.assets (not_exists.mp hp)).still.holds (fun hab ha => ?_) hk
    exact AssetStatus.eq_redeemed (ha ▸ hab)

/-- **Custody stays redeemed.** -/
theorem redeemedCustody (h : e.Edges l l') (hk : l.RedeemedCustody k) : l'.RedeemedCustody k :=
  h.custody.still.holds (fun hab ha => CustodyStatus.eq_redeemed (ha ▸ hab)) hk

end Event.Edges

/-- **A redemption that is applied** found its token not redeemed, and leaves
it redeemed. -/
theorem Payload.Writes.redeems {l l' : Ledgers} {w : Writing} {q : TokenRef}
    (hw : (Payload.redeemNft q).Writes l w) (h : w.Between l l') :
    ¬ l.Redeemed q.tokenId ∧ l'.Redeemed q.tokenId := by
  cases hw with
  | redeemNft hnft hstatus =>
    refine ⟨?_, h.nfts.holds (List.mem_singleton_self _) hnft fun _ => rfl⟩
    rintro ⟨n, hn, hredeemed⟩
    obtain rfl := Option.some.inj (hnft.symm.trans hn)
    rw [hredeemed] at hstatus
    exact hstatus.elim nofun nofun
  | aside haside => cases haside

namespace Traffic

open Relation (ReflTransGen)

variable {ι : Type} {settings : DispatchSettings} {raws : ι → InboundEvent} {l₀ : Ledgers}
  {verify : Bool} {t t' u u' : Traffic ι} {k : String}

/-- A step releases a token. -/
def Releases (verify : Bool) (raws : ι → InboundEvent) (k : String) (u u' : Traffic ι) : Prop :=
  ∃ i e, Applies verify raws i e u u' ∧ e.payload.Releases u.ledgers k

/-- A step releases an asset. -/
def ReleasesAsset (verify : Bool) (raws : ι → InboundEvent) (k : String) (u u' : Traffic ι) :
    Prop :=
  ∃ i e, Applies verify raws i e u u' ∧ e.payload.ReleasesAsset u.ledgers k

/-- The step that applies a redemption redeems a token that was not redeemed. -/
theorem Sound.redeems {i : ι} {o : Origin} {q : TokenRef} (hl : l₀.Keyed)
    (h : t.Sound verify raws l₀) (happlies : Applies verify raws i ⟨o, .redeemNft q⟩ t t') :
    ¬ t.ledgers.Redeemed q.tokenId ∧ t'.ledgers.Redeemed q.tokenId := by
  obtain ⟨clock, fx, hchanges⟩ := happlies.changes
  obtain ⟨w, hw, hbetween⟩ := hchanges.writes (h.keyed hl)
  exact Payload.Writes.redeems hw hbetween

variable [DecidableEq ι]

/-- **A redemption lasts until a release**, of a token... -/
theorem Sound.redeemed_or_released (hl : l₀.Keyed) (h : t.Sound verify raws l₀)
    (hsteps : ReflTransGen (Step verify) t t') (hk : t.ledgers.Redeemed k) :
    t'.ledgers.Redeemed k ∨ ∃ u u', Passes verify t u u' t' ∧ Releases verify raws k u u' :=
  h.lasts (P := (·.Redeemed k)) (U := fun e l => e.payload.Releases l k) hl
    (fun hsound happlies hnot hk => (hsound.edges hl happlies).redeemed hk hnot) hsteps hk

/-- ...and of an asset. -/
theorem Sound.redeemedAsset_or_released (hl : l₀.Keyed) (h : t.Sound verify raws l₀)
    (hsteps : ReflTransGen (Step verify) t t') (hk : t.ledgers.RedeemedAsset k) :
    t'.ledgers.RedeemedAsset k ∨
      ∃ u u', Passes verify t u u' t' ∧ ReleasesAsset verify raws k u u' :=
  h.lasts (P := (·.RedeemedAsset k)) (U := fun e l => e.payload.ReleasesAsset l k) hl
    (fun hsound happlies hnot hk => (hsound.edges hl happlies).redeemedAsset hk hnot) hsteps hk

/-- **A token that is redeemed** was released before it is redeemed again. -/
theorem Sound.released_before {j : ι} {o : Origin} {q : TokenRef} (hl : l₀.Keyed)
    (h : t.Sound verify raws l₀) (hsteps : ReflTransGen (Step verify) t t')
    (hredeemed : t.ledgers.Redeemed q.tokenId)
    (hraw : (raws j).normalize = .ok (some ⟨o, .redeemNft q⟩))
    (hj : j ∉ t.applied) (hj' : j ∈ t'.applied) :
    ∃ u u', Passes verify t u u' t' ∧ Releases verify raws q.tokenId u u' ∧ j ∉ u.applied := by
  obtain ⟨v, v', e, hpasses, hsound, happlies⟩ := h.exists_applies hl hsteps hj hj'
  obtain rfl : ⟨o, .redeemNft q⟩ = e := by simpa [hraw] using happlies.normal
  have hlasts := h.redeemed_or_released hl hpasses.before hredeemed
  obtain ⟨u, u', hu, hreleases⟩ := hlasts.resolve_left (hsound.redeems hl happlies).1
  refine ⟨u, u', hu.extend .refl (.head hpasses.step hpasses.after), hreleases, fun hmem => ?_⟩
  -- An event is applied once, and this one was yet to be applied.
  have hmem' := (h.steps hl hu.before).mem_applied_of_steps hl (.head hu.step hu.after) hmem
  have hnodup := (hsound.step hl hpasses.step).nodup
  rw [happlies.applied] at hnodup
  exact List.disjoint_of_nodup_append hnodup hmem' (List.mem_singleton_self j)

/-- The redemption that is applied first, of two of one token: the token is
released after it and before the other one. -/
theorem Sound.released_after {i j : ι} {e : Event} {o o' : Origin} {p q : TokenRef}
    (hl : l₀.Keyed) (h : u.Sound verify raws l₀) (happlies : Applies verify raws i e u u')
    (hstep : Step verify u u') (hsteps : ReflTransGen (Step verify) u' t) (hij : i ≠ j)
    (hi : (raws i).normalize = .ok (some ⟨o, .redeemNft p⟩))
    (hj : (raws j).normalize = .ok (some ⟨o', .redeemNft q⟩)) (heq : p.tokenId = q.tokenId)
    (hju : j ∉ u.applied) (hjt : j ∈ t.applied) :
    ∃ v v', Passes verify u v v' t ∧ Releases verify raws q.tokenId v v' ∧
      i ∈ v.applied ∧ j ∉ v.applied := by
  obtain rfl : ⟨o, .redeemNft p⟩ = e := by simpa [hi] using happlies.normal
  have hsound := h.step hl hstep
  have hredeemed := (h.redeems hl happlies).2
  have hju' : j ∉ u'.applied := by
    rw [happlies.applied, List.mem_append, List.mem_singleton]
    exact not_or.mpr ⟨hju, hij.symm⟩
  obtain ⟨v, v', hv, hreleases, hjv⟩ :=
    hsound.released_before hl hsteps (heq ▸ hredeemed) hj hju' hjt
  have hiu' : i ∈ u'.applied := happlies.applied ▸ List.mem_append_right _ (.head _)
  exact ⟨v, v', hv.extend (.single hstep) .refl, hreleases,
    hsound.mem_applied_of_steps hl hv.before hiu', hjv⟩

/-- **What becomes of redemptions** in a run up to some moment. -/
structure Redemptions (settings : DispatchSettings) (raws : ι → InboundEvent) (l₀ : Ledgers)
    (t : Traffic ι) : Prop where
  /-- A token that was redeemed is, or was released since. -/
  tokens : ∀ u k, Run settings raws l₀ u → ReflTransGen (Step settings.verifyReceipts) u t →
    u.ledgers.Redeemed k → t.ledgers.Redeemed k ∨
      ∃ v v', Passes settings.verifyReceipts u v v' t ∧ Releases settings.verifyReceipts raws k v v'
  /-- An asset that was redeemed is, or was released since. -/
  assets : ∀ u k, Run settings raws l₀ u → ReflTransGen (Step settings.verifyReceipts) u t →
    u.ledgers.RedeemedAsset k → t.ledgers.RedeemedAsset k ∨
      ∃ v v', Passes settings.verifyReceipts u v v' t ∧
        ReleasesAsset settings.verifyReceipts raws k v v'
  /-- Custody that was redeemed is. -/
  custody : ∀ u k, Run settings raws l₀ u → ReflTransGen (Step settings.verifyReceipts) u t →
    u.ledgers.RedeemedCustody k → t.ledgers.RedeemedCustody k
  /-- Between two redemptions of a token that were applied, it was released. -/
  apart : ∀ i j o o' p q, i ≠ j → (raws i).normalize = .ok (some ⟨o, .redeemNft p⟩) →
    (raws j).normalize = .ok (some ⟨o', .redeemNft q⟩) → p.tokenId = q.tokenId →
    i ∈ t.applied → j ∈ t.applied →
    ∃ u u', Passes settings.verifyReceipts (start settings raws l₀) u u' t ∧
      Releases settings.verifyReceipts raws p.tokenId u u' ∧ (i ∈ u.applied ↔ j ∉ u.applied)

/-- **A redemption lasts until a release**, in any run from ledgers with every
document under its own key (`Seed.keyed_ledgers`). -/
theorem redemptions_of_run (hl : l₀.Keyed) (h : Run settings raws l₀ t) :
    Redemptions settings raws l₀ t where
  tokens u k hu hsteps hk := (hu.sound hl).redeemed_or_released hl hsteps hk
  assets u k hu hsteps hk := (hu.sound hl).redeemedAsset_or_released hl hsteps hk
  custody u k hu hsteps hk :=
    (hu.sound hl).keeps (P := (·.RedeemedCustody k)) hl
      (fun hsound happlies => (hsound.edges hl happlies).redeemedCustody) hsteps hk
  apart i j o o' p q hij hp hq heq hi hj := by
    -- The first of them is applied by the step after which one of them is.
    obtain ⟨u, u', hpasses, hu, hu'⟩ :=
      exists_passes (P := fun u => i ∉ u.applied ∧ j ∉ u.applied) h
        ⟨List.not_mem_nil, List.not_mem_nil⟩ (fun hn => hn.1 hi)
    have hsound := sound_start.steps hl hpasses.before
    rcases hsound.step_or_applies hpasses.step with ⟨-, happlied⟩ | ⟨x, e, happlies⟩
    · exact absurd (happlied ▸ hu) hu'
    · have hx : x = i ∨ x = j := by
        by_contra hx
        rw [not_or] at hx
        refine hu' ?_
        rw [happlies.applied]
        simp [hu.1, hu.2, Ne.symm hx.1, Ne.symm hx.2]
      rcases hx with rfl | rfl
      · obtain ⟨v, v', hv, hreleases, hiv, hjv⟩ := hsound.released_after hl happlies hpasses.step
          hpasses.after hij hp hq heq hu.2 hj
        exact ⟨v, v', hv.extend hpasses.before .refl, heq ▸ hreleases, iff_of_true hiv hjv⟩
      · obtain ⟨v, v', hv, hreleases, hjv, hiv⟩ := hsound.released_after hl happlies hpasses.step
          hpasses.after hij.symm hq hp heq.symm hu.1 hi
        exact ⟨v, v', hv.extend hpasses.before .refl, hreleases,
          iff_of_false hiv (not_not.mpr hjv)⟩

theorem redemptions_redeemTwice :
    ∃ t, Run ⟨false, 1⟩ redeemTwice sampleDraft t ∧ t.applied = [0, 1, 2, 3] ∧
      Redemptions ⟨false, 1⟩ redeemTwice sampleDraft t := by
  obtain ⟨t, hrun, happlied⟩ := run_redeemTwice
  exact ⟨t, hrun, happlied, redemptions_of_run keyed_sampleDraft hrun⟩

/-! ## Redeemed again -/

/-- What is reported of the first few of the four events when they are
dispatched one after the other, and what is left then. -/
def redeemedSoFar (n : Nat) : List Report × Rerun :=
  (Rerun.host fun _ => true).dispatchAll ⟨false, 1⟩ (((List.finRange 4).map redeemTwice).take n)
    ⟨sampleDraft, [⟨.supply 1 default, Except.ok ((1000, 1) : Nat × Nat)⟩], []⟩

/-- The statuses of the token and of its asset. -/
def tokenStatuses (l : Ledgers) : Option NftStatus × Option AssetStatus :=
  ((l.nfts.get? "7").map (·.status), (l.assets.get? "asset").map (·.status))

/-- **A redemption that does not last.** The token and its asset are redeemed,
the deactivation of the fractional token takes both back, and the same
redemption is applied a second time. -/
theorem redeemed_again :
    tokenStatuses (redeemedSoFar 2).2.ledgers = (some .redeemed, some .redeemed) ∧
      tokenStatuses (redeemedSoFar 3).2.ledgers = (some .minted, some .convertedToNft) ∧
      redeemTwice 1 = redeemTwice 3 ∧
      (redeemedSoFar 4).1.map (·.isApplied) = [true, true, true, true] := by
  refine ⟨by decide +kernel, by decide +kernel, rfl, by decide +kernel⟩

end Traffic

end ChainLedger
