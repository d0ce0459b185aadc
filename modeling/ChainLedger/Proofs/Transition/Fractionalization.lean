import ChainLedger.Proofs.Transition.Lifecycle

/-!
# Fractional tokens and what is behind them

While a fractional token is active, the tokens that it lists are
fractionalized, or redeemed since, and know the fractional token, and the
assets behind them have come as far; once it is merged, the assets can be
redeemed (`Ledgers.Consistent`). Where no two fractional tokens share a token
or an asset (`Ledgers.Separate`), every event keeps that
(`Event.Changes.consistent`): it takes back only what belongs to the
fractional token that it deactivates, and moves all else forward.
-/

namespace ChainLedger

open Collection

/-! ## Consistency -/

/-- **No two fractional tokens share** a token, nor an asset behind their
tokens. -/
structure Ledgers.Separate (l : Ledgers) : Prop where
  nfts : ∀ {k k' f f' x}, l.fnfts.get? k = some f → l.fnfts.get? k' = some f' → x ∈ f.nftIds →
    x ∈ f'.nftIds → k = k'
  assets : ∀ {k k' f f' x}, l.fnfts.get? k = some f → l.fnfts.get? k' = some f' →
    x ∈ l.assetsBehind f.nftIds → x ∈ l.assetsBehind f'.nftIds → k = k'

/-- A token is part of a fractional token: it is fractionalized, or redeemed
since, and it knows the fractional token. -/
structure Nft.PartOf (id : String) (n : Nft) : Prop where
  status : n.status = .fractionalized ∨ n.status = .redeemed
  fnftId : n.fnftId = some id

/-- An asset is fractionalized at least, and in custody at least. -/
structure Asset.Fractionalized (a : Asset) : Prop where
  status : Pipeline.place AssetStatus.fractionalized ≤ Pipeline.place a.status
  custody : Pipeline.place CustodyStatus.frac ≤ Pipeline.place a.custody

/-- An asset can be redeemed from custody, or was. -/
def Asset.Redeemable (a : Asset) : Prop :=
  Pipeline.place CustodyStatus.availableForRedeem ≤ Pipeline.place a.custody

/-- **Fractional tokens agree with what is behind them**, as far as that is
known. -/
structure Ledgers.Consistent (l : Ledgers) : Prop where
  /-- The tokens of an active fractional token are part of it. -/
  nfts : ∀ {k f x n}, l.fnfts.get? k = some f → f.status = .active → x ∈ f.nftIds →
    l.nfts.get? x = some n → n.PartOf k
  /-- The assets behind an active fractional token are fractionalized. -/
  assets : ∀ {k f x a}, l.fnfts.get? k = some f → f.status = .active →
    x ∈ l.assetsBehind f.nftIds → l.assets.get? x = some a → a.Fractionalized
  /-- The assets behind a merged fractional token can be redeemed. -/
  merged : ∀ {k f x a}, l.fnfts.get? k = some f → f.status = .merged →
    x ∈ l.assetsBehind f.nftIds → l.assets.get? x = some a → a.Redeemable

variable {l l' : Ledgers} {p : Payload} {w : Writing} {k x : String} {f f' : Fnft}

/-! ## What is listed stays listed -/

/-- The assets behind some tokens stay behind them. -/
theorem Ledgers.Follows.assetsBehind_eq (h : l.Follows l') (ids : List String) :
    l'.assetsBehind ids = l.assetsBehind ids := by
  refine List.filterMap_congr fun id _ => ?_
  have hrel := h.nfts.rel id
  generalize l.nfts.get? id = x, l'.nfts.get? id = y at hrel
  cases hrel with
  | none => rfl
  | some hab =>
    rcases hab with rfl | ⟨-, hab⟩
    · rfl
    · exact congrArg some hab.assetId

/-- A fractional token lists what it listed. -/
theorem Ledgers.Follows.listed (h : l.Follows l') (hf' : l'.fnfts.get? k = some f') :
    ∃ f, l.fnfts.get? k = some f ∧ f'.nftIds = f.nftIds := by
  obtain ⟨f, hf, hlater⟩ := h.fnfts.before hf'
  refine ⟨f, hf, ?_⟩
  rcases hlater with rfl | ⟨-, hlater⟩
  · rfl
  · exact hlater.nftIds

/-- An asset that is behind a fractional token was behind it. -/
theorem Ledgers.Follows.behind {a' : Asset} (h : l.Follows l') (hf' : l'.fnfts.get? k = some f')
    (hx : x ∈ l'.assetsBehind f'.nftIds) (ha' : l'.assets.get? x = some a') :
    ∃ f a, l.fnfts.get? k = some f ∧ x ∈ l.assetsBehind f.nftIds ∧ l.assets.get? x = some a := by
  obtain ⟨f, hf, hlisted⟩ := h.listed hf'
  obtain ⟨a, ha, -⟩ := h.assets.before ha'
  rw [hlisted, h.assetsBehind_eq] at hx
  exact ⟨f, a, hf, hx, ha⟩

/-- Fractional tokens stay separate. -/
theorem Ledgers.Follows.separate (h : l.Follows l') (hs : l.Separate) : l'.Separate where
  nfts hf hf' hx hx' := by
    obtain ⟨g, hg, hlisted⟩ := h.listed hf
    obtain ⟨g', hg', hlisted'⟩ := h.listed hf'
    exact hs.nfts hg hg' (hlisted ▸ hx) (hlisted' ▸ hx')
  assets hf hf' hx hx' := by
    obtain ⟨g, hg, hlisted⟩ := h.listed hf
    obtain ⟨g', hg', hlisted'⟩ := h.listed hf'
    rw [h.assetsBehind_eq, hlisted] at hx
    rw [h.assetsBehind_eq, hlisted'] at hx'
    exact hs.assets hg hg' hx hx'

/-! ## How a status comes about -/

/-- A status that is advanced to another one has come that far. -/
theorem le_place_advance {α : Type} [Pipeline α] (current next : α) :
    Pipeline.place next ≤ Pipeline.place (advance current next) := by
  unfold advance ahead
  split
  · exact Nat.le_refl _
  · next h => exact Nat.le_of_not_lt (by simpa using h)

/-- A token that is advanced to be fractionalized is that, or was redeemed. -/
theorem advance_fractionalized (s : NftStatus) :
    advance s .fractionalized = .fractionalized ∨ advance s .fractionalized = .redeemed := by
  cases s <;> decide

namespace Payload.Writes

/-- **A fractional token that is active** was active and is not deactivated by
the event, or it is the draft that the event mints. -/
theorem active (hw : p.Writes l w) (h : w.Between l l') (k : String) :
    Option.Rel (fun f f' => f'.status = .active →
      (f.status = .active ∧ ∀ q, p = .deactivateFnft q → q.fnftId ≠ k) ∨
        ∃ q, p = .mintFnft q ∧ q.fnftId = k) (l.fnfts.get? k) (l'.fnfts.get? k) := by
  refine h.fnfts.rel k (fun hk f hactive => ?_) fun hk f t hf hactive => ?_
  · refine .inl ⟨hactive, ?_⟩
    rintro q rfl rfl
    cases hw with
    | deactivateFnft => exact hk (List.mem_singleton_self _)
    | aside haside => cases haside
  · cases hw with
    | mintFnft => exact .inr ⟨_, rfl, (List.mem_singleton.mp hk).symm⟩
    | deposit => exact .inl ⟨hactive, nofun⟩
    | deactivateFnft => cases hactive
    | mergeFnft => cases hactive
    | _ => exact absurd hk List.not_mem_nil

/-- **A fractional token that is merged** was merged, or the event merges it. -/
theorem merged (hw : p.Writes l w) (h : w.Between l l') (k : String) :
    Option.Rel (fun f f' => f'.status = .merged →
      f.status = .merged ∨ ∃ q, p = .mergeFnft q ∧ q.fnftId = k)
      (l.fnfts.get? k) (l'.fnfts.get? k) := by
  refine h.fnfts.rel k (fun _ f => .inl) fun hk f t hf hmerged => ?_
  cases hw with
  | mergeFnft => exact .inr ⟨_, rfl, (List.mem_singleton.mp hk).symm⟩
  | deposit => exact .inl hmerged
  | deactivateFnft => cases hmerged
  | mintFnft => cases hmerged
  | _ => exact absurd hk List.not_mem_nil

/-! ## What belongs to an active fractional token -/

/-- **The tokens of a fractional token stay part of it** as long as it is
active. -/
theorem partOf (hs : l.Separate) (hw : p.Writes l w) (h : w.Between l l')
    (hf : l.fnfts.get? k = some f) (hactive : f.status = .active)
    (hnot : ∀ q, p = .deactivateFnft q → q.fnftId ≠ k) (hx : x ∈ f.nftIds) :
    Option.Rel (fun n n' => n.PartOf k → n'.PartOf k) (l.nfts.get? x) (l'.nfts.get? x) := by
  refine h.nfts.rel x (fun _ _ => id) fun hk n t hn hpart => ?_
  cases hw with
  | mintNft hnft hdraft =>
    obtain rfl := eq_of_mem_singleton hnft hk hn
    have hstatus := hpart.status
    rw [hdraft] at hstatus
    rcases hstatus with h | h <;> cases h
  | mintFnft hfnft hdraft =>
    obtain rfl := hs.nfts hf hfnft hx hk
    obtain rfl := Option.some.inj (hf.symm.trans hfnft)
    rw [hactive] at hdraft
    cases hdraft
  | deactivateFnft hfnft => exact absurd (hs.nfts hfnft hf hk hx) (hnot _ rfl)
  | redeemNft => exact ⟨.inr rfl, hpart.fnftId⟩
  | _ => exact absurd hk List.not_mem_nil

/-- **The tokens of a draft that is minted** become part of it. -/
theorem partOf_mintFnft {q : FnftMinted} (hw : (Payload.mintFnft q).Writes l w)
    (h : w.Between l l') (hf : l.fnfts.get? q.fnftId = some f) (hx : x ∈ f.nftIds) :
    Option.Rel (fun _ n' => n'.PartOf q.fnftId) (l.nfts.get? x) (l'.nfts.get? x) := by
  cases hw with
  | mintFnft hfnft =>
    obtain rfl := Option.some.inj (hf.symm.trans hfnft)
    refine (h.nfts.rel_of_mem hx).imp fun n n' _ hwritten => ?_
    obtain ⟨t, rfl⟩ := hwritten
    exact ⟨advance_fractionalized n.status, rfl⟩
  | aside haside => cases haside

/-- **The assets behind a draft that is minted** are fractionalized. -/
theorem fractionalized_mintFnft {q : FnftMinted} (hw : (Payload.mintFnft q).Writes l w)
    (h : w.Between l l') (hf : l.fnfts.get? q.fnftId = some f) (hx : x ∈ l.assetsBehind f.nftIds) :
    Option.Rel (fun _ a' => a'.Fractionalized) (l.assets.get? x) (l'.assets.get? x) := by
  cases hw with
  | mintFnft hfnft =>
    obtain rfl := Option.some.inj (hf.symm.trans hfnft)
    refine (h.assets.rel_of_mem hx).imp fun a a' _ hwritten => ?_
    obtain ⟨t, rfl⟩ := hwritten
    exact ⟨le_place_advance _ _, le_place_advance _ _⟩
  | aside haside => cases haside

/-- **The assets behind a fractional token that is merged** can be redeemed. -/
theorem redeemable_mergeFnft {q : FnftRef} (hw : (Payload.mergeFnft q).Writes l w)
    (h : w.Between l l') (hf : l.fnfts.get? q.fnftId = some f) (hx : x ∈ l.assetsBehind f.nftIds) :
    Option.Rel (fun _ a' => a'.Redeemable) (l.assets.get? x) (l'.assets.get? x) := by
  cases hw with
  | mergeFnft hfnft =>
    obtain rfl := Option.some.inj (hf.symm.trans hfnft)
    refine (h.assets.rel_of_mem hx).imp fun a a' _ hwritten => ?_
    obtain ⟨t, rfl⟩ := hwritten
    exact le_place_advance _ _
  | aside haside => cases haside

end Payload.Writes

/-- **The assets behind a fractional token stay fractionalized** as long as it
is active: another one that is deactivated has other assets behind it. -/
theorem Event.Edges.fractionalized {e : Event} {a a' : Asset} (hs : l.Separate) (h : e.Edges l l')
    (hf : l.fnfts.get? k = some f) (hnot : ∀ q, e.payload = .deactivateFnft q → q.fnftId ≠ k)
    (hx : x ∈ l.assetsBehind f.nftIds) (ha : l.assets.get? x = some a)
    (ha' : l'.assets.get? x = some a') (hfrac : a.Fractionalized) : a'.Fractionalized := by
  refine ⟨?_, Nat.le_trans hfrac.custody (h.custody.of_get? ha ha')⟩
  by_cases hdeactivates : ∃ q, e.payload = .deactivateFnft q
  · obtain ⟨q, hq⟩ := hdeactivates
    obtain ⟨g, hg, -, -, hassets⟩ := h.deactivated q hq
    have hkept := hassets x fun hxg => hnot q hq (hs.assets hg hf hxg hx)
    obtain rfl := Option.some.inj (ha'.symm.trans (hkept.trans ha))
    exact hfrac.status
  · have hforward := h.assets fun q hq => hdeactivates ⟨q, hq⟩
    exact Nat.le_trans hfrac.status (hforward.of_get? ha ha')

/-- **Every event keeps fractional tokens consistent** with what is behind
them. -/
theorem Event.Changes.consistent {e : Event} {clock : Clock} {fx : List Effect} (hl : l.Keyed)
    (hs : l.Separate) (hc : l.Consistent) (h : e.Changes clock l l' fx) : l'.Consistent := by
  obtain ⟨w, hw, hbetween⟩ := h.writes hl
  have hedges := h.edges hl
  have hfollows := h.follows hl
  constructor
  case nfts =>
    intro k f' x n' hf' hactive hx hn'
    obtain ⟨f, hf, hlisted⟩ := hfollows.listed hf'
    obtain ⟨n, hn, -⟩ := hfollows.nfts.before hn'
    rw [hlisted] at hx
    rcases (hw.active hbetween k).of_eq_some hf hf' hactive with ⟨hwas, hnot⟩ | ⟨q, hq, rfl⟩
    · have hkept := hw.partOf hs hbetween hf hwas hnot hx
      exact hkept.of_eq_some hn hn' (hc.nfts hf hwas hx hn)
    · exact (Payload.Writes.partOf_mintFnft (hq ▸ hw) hbetween hf hx).of_eq_some hn hn'
  case assets =>
    intro k f' x a' hf' hactive hx ha'
    obtain ⟨f, a, hf, hx, ha⟩ := hfollows.behind hf' hx ha'
    rcases (hw.active hbetween k).of_eq_some hf hf' hactive with ⟨hwas, hnot⟩ | ⟨q, hq, rfl⟩
    · exact hedges.fractionalized hs hf hnot hx ha ha' (hc.assets hf hwas hx ha)
    · exact (Payload.Writes.fractionalized_mintFnft (hq ▸ hw) hbetween hf hx).of_eq_some ha ha'
  case merged =>
    intro k f' x a' hf' hmerged hx ha'
    obtain ⟨f, a, hf, hx, ha⟩ := hfollows.behind hf' hx ha'
    rcases (hw.merged hbetween k).of_eq_some hf hf' hmerged with hwas | ⟨q, hq, rfl⟩
    · exact Nat.le_trans (hc.merged hf hwas hx ha) (hedges.custody.of_get? ha ha')
    · exact (Payload.Writes.redeemable_mergeFnft (hq ▸ hw) hbetween hf hx).of_eq_some ha ha'

end ChainLedger
