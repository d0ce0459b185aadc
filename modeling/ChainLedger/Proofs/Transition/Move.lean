import ChainLedger.Proofs.Transition.Fractionalization
import ChainLedger.Proofs.Transition.Join
import ChainLedger.Proofs.Transition.Supply

/-!
# Moves along the asset pipeline

Four kinds of events take an asset through its pipeline, and each makes one
`Move`. A move is open to ledgers whose document waits for it (`Move.Open`),
and then it brings the tokens and the assets that it reaches to its goal:
they end at the join of the goal and of where they were.

`Ledgers.Brought S l l'` says that the moves of `S` brought `l` to `l'`, and
nothing about their order, which is what makes orders comparable. Moves
compose (`Brought.trans`), make no difference when they are made again
(`Brought.again`), and a move that was open and is not any more was overtaken:
all that it brings about is there (`Brought.overtaken`).
-/

namespace ChainLedger

open Collection

/-! ## Moves -/

/-- **A move along the asset pipeline.** -/
inductive Move
  /-- A token is minted. -/
  | mint (tokenId : String)
  /-- A fractional token is minted with a supply. -/
  | fractionalize (fnftId : String) (supply : Decimal)
  /-- An offering goes on its chain. -/
  | offer (offeringId : String)
  /-- An asset comes into custody. -/
  | takeIn (assetId : String)

/-- Where a move takes the tokens and the assets that it reaches. -/
structure Goal where
  nft : Option NftStatus := none
  asset : Option AssetStatus := none
  custody : Option CustodyStatus := none

/-- How a fractional token stands: its status, and its supply. -/
def Fnft.standing (f : Fnft) : FnftStatus × Supply := (f.status, f.supply)

namespace Move

/-- The goal of a move. -/
def goal : Move → Goal
  | mint _ => { nft := some .minted, asset := some .convertedToNft }
  | fractionalize _ _ =>
    { nft := some .fractionalized, asset := some .fractionalized, custody := some .frac }
  | offer _ => { asset := some .iaoEvent }
  | takeIn _ => { custody := some .frac }

/-- The tokens that a move reaches. -/
def tokens (l : Ledgers) : Move → List String
  | mint id => [id]
  | fractionalize id _ => ((l.fnfts.get? id).map (·.nftIds)).getD []
  | offer id => ((l.offerings.get? id).map (OfferingRef.nftsOf l)).getD []
  | takeIn _ => []

/-- The assets that a move reaches: those behind its tokens, or its own. -/
def assets (l : Ledgers) : Move → List String
  | takeIn id => [id]
  | m => l.assetsBehind (m.tokens l)

/-- **A move is open**: its document is there and waits for it. -/
def Open (l : Ledgers) : Move → Prop
  | mint id => l.nfts.Holds id fun n => n.status = .draft ∧ ∃ a, l.assets.get? n.assetId = some a
  | fractionalize id _ => l.fnfts.Holds id (·.status = .draft)
  | offer id => l.offerings.Holds id fun o => o.status = .active ∧ o.onChainStatus = .draft
  | takeIn id => l.assets.Holds id fun a => a.custody = .fractor ∨ a.custody = .inReview

end Move

/-- **Ledgers that some moves were made on.** Every status ended at the join
of what it was and of the goals of the moves that reach it, and a fractional
token stands as it was minted, or as it stood. -/
structure Ledgers.Brought (S : Move → Prop) (l l' : Ledgers) : Prop where
  follows : l.Follows l'
  nfts : Raised Nft.status (fun k s => ∃ m, S m ∧ k ∈ m.tokens l ∧ m.goal.nft = some s)
    l.nfts l'.nfts
  assets : Raised Asset.status (fun k s => ∃ m, S m ∧ k ∈ m.assets l ∧ m.goal.asset = some s)
    l.assets l'.assets
  custody : Raised Asset.custody (fun k s => ∃ m, S m ∧ k ∈ m.assets l ∧ m.goal.custody = some s)
    l.assets l'.assets
  fnfts : ∀ k, Option.Rel (fun f f' =>
    (∀ d, S (.fractionalize k d) → f'.standing = (.active, ⟨d, d⟩)) ∧
      ((∀ d, ¬ S (.fractionalize k d)) → f'.standing = f.standing))
    (l.fnfts.get? k) (l'.fnfts.get? k)
  offerings : Raised Offering.onChainStatus (fun k s => S (.offer k) ∧ s = .onChain)
    l.offerings l'.offerings
  active : ∀ k, Option.Rel (fun o o' => o'.status = o.status) (l.offerings.get? k)
    (l'.offerings.get? k)

variable {l l' l'' : Ledgers} {S S' : Move → Prop} {m : Move} {clock : Clock} {fx : List Effect}

/-! ## What a move reaches -/

namespace Ledgers.Follows

/-- A move reaches the tokens that it reached. -/
theorem tokens_eq (h : l.Follows l') (m : Move) : m.tokens l' = m.tokens l := by
  have hlisted (k : String) :
      (l'.fnfts.get? k).map (·.nftIds) = (l.fnfts.get? k).map (·.nftIds) := by
    have hrel := h.fnfts.rel k
    generalize l.fnfts.get? k = x, l'.fnfts.get? k = y at hrel
    cases hrel with
    | none => rfl
    | some hab =>
      rcases hab with rfl | ⟨-, hab⟩
      · rfl
      · exact congrArg some hab.nftIds
  cases m with
  | fractionalize id d => simp only [Move.tokens, hlisted]
  | offer id =>
    have hrel := h.offerings.rel id
    simp only [Move.tokens]
    generalize l.offerings.get? id = x, l'.offerings.get? id = y at hrel
    cases hrel with
    | none => rfl
    | @some o o' hab =>
      have hfnft : o'.fnftId = o.fnftId := by
        rcases hab with rfl | ⟨-, hab⟩
        · rfl
        · exact hab.fnftId_eq
      simp only [Option.map_some, Option.getD_some, OfferingRef.nftsOf, hfnft, hlisted]
  | _ => rfl

theorem assets_eq (h : l.Follows l') (m : Move) : m.assets l' = m.assets l := by
  cases m with
  | takeIn => rfl
  | _ => simp only [Move.assets, h.tokens_eq, h.assetsBehind_eq]

end Ledgers.Follows

/-! ## Moves together -/

namespace Ledgers

namespace Brought

/-- No move leaves the ledgers as they are. -/
theorem refl (l : Ledgers) (hS : ∀ m, ¬ S m) : l.Brought S l where
  follows := .refl l
  nfts := .of_reached fun _ _ ⟨m, hm, _⟩ => absurd hm (hS m)
  assets := .of_reached fun _ _ ⟨m, hm, _⟩ => absurd hm (hS m)
  custody := .of_reached fun _ _ ⟨m, hm, _⟩ => absurd hm (hS m)
  fnfts _ := .self fun _ _ => ⟨fun _ hm => absurd hm (hS _), fun _ => rfl⟩
  offerings := .of_reached fun _ _ ⟨hm, _⟩ => absurd hm (hS _)
  active _ := .self fun _ _ => rfl

theorem congr (h : l.Brought S l') (hS : ∀ m, S m ↔ S' m) : l.Brought S' l' := by
  rwa [show S' = S from funext fun m => propext (hS m).symm]

/-- **Moves compose**, if no fractional token is minted with two supplies. -/
theorem trans (h : l.Brought S l') (h' : l'.Brought S' l'')
    (hone : ∀ k d d', S (.fractionalize k d) → S' (.fractionalize k d') → d = d') :
    l.Brought (fun m => S m ∨ S' m) l'' where
  follows := h.follows.trans h'.follows
  nfts := (h.nfts.trans h'.nfts).congr fun k s => by
    simp only [h.follows.tokens_eq, or_and_right, exists_or]
  assets := (h.assets.trans h'.assets).congr fun k s => by
    simp only [h.follows.assets_eq, or_and_right, exists_or]
  custody := (h.custody.trans h'.custody).congr fun k s => by
    simp only [h.follows.assets_eq, or_and_right, exists_or]
  fnfts k := by
    refine (h.fnfts k).comp (h'.fnfts k) fun f f' f'' hf hf' => ⟨?_, fun hnone => ?_⟩
    · rintro d (hd | hd)
      · by_cases hagain : ∃ d', S' (.fractionalize k d')
        · obtain ⟨d', hd'⟩ := hagain
          rw [hone k d d' hd hd']
          exact hf'.1 d' hd'
        · rw [hf'.2 fun d' hd' => hagain ⟨d', hd'⟩, hf.1 d hd]
      · exact hf'.1 d hd
    · rw [hf'.2 fun d hd => hnone d (.inr hd), hf.2 fun d hd => hnone d (.inl hd)]
  offerings := (h.offerings.trans h'.offerings).congr fun k s => by rw [or_and_right]
  active k := (h.active k).comp (h'.active k) fun _ _ _ ho ho' => ho'.trans ho

/-- **Moves that were made** make no difference when they are made again. -/
theorem again (h : l.Brought S l') (hS : ∀ m, S' m → S m) : l'.Brought S' l' where
  follows := .refl l'
  nfts := h.nfts.again fun k s ⟨m, hm, hk, hs⟩ => ⟨m, hS m hm, h.follows.tokens_eq m ▸ hk, hs⟩
  assets := h.assets.again fun k s ⟨m, hm, hk, hs⟩ => ⟨m, hS m hm, h.follows.assets_eq m ▸ hk, hs⟩
  custody := h.custody.again fun k s ⟨m, hm, hk, hs⟩ =>
    ⟨m, hS m hm, h.follows.assets_eq m ▸ hk, hs⟩
  fnfts k := .self fun f' hf' => by
    obtain ⟨f, -, hf⟩ := (hf' ▸ h.fnfts k : Option.Rel _ (l.fnfts.get? k) (some f')).to_some
    exact ⟨fun d hd => hf.1 d (hS _ hd), fun _ => rfl⟩
  offerings := h.offerings.again fun k s ⟨hm, hs⟩ => ⟨hS _ hm, hs⟩
  active _ := .self fun _ _ => rfl

/-- A move that is open was open before. -/
theorem open_of_open (h : l.Brought S l') (hm : m.Open l') : m.Open l := by
  cases m with
  | mint id =>
    obtain ⟨n', hn', hdraft, a', ha'⟩ := hm
    obtain ⟨n, hn, hlater⟩ := h.follows.nfts.before hn'
    -- A token that was written is a draft no more.
    obtain rfl : n' = n := hlater.resolve_right fun hbecomes => hbecomes.2.status hdraft
    obtain ⟨a, ha, -⟩ := h.follows.assets.before ha'
    exact ⟨n', hn, hdraft, a, ha⟩
  | fractionalize id d =>
    obtain ⟨f', hf', hdraft⟩ := hm
    obtain ⟨f, hf, hlater⟩ := h.follows.fnfts.before hf'
    refine ⟨f, hf, ?_⟩
    rcases hlater with rfl | ⟨-, hbecomes⟩
    · exact hdraft
    · exact Decidable.byContradiction fun hwas => hbecomes.minted hwas hdraft
  | offer id =>
    obtain ⟨o', ho', hactive, hdraft⟩ := hm
    obtain ⟨o, ho, hstatus⟩ := (ho' ▸ h.active id : Option.Rel _ _ (some o')).to_some
    have hjoin := (h.offerings.joins ho ho').le
    rw [hdraft] at hjoin
    refine ⟨o, ho, hstatus ▸ hactive, ?_⟩
    cases hwas : o.onChainStatus with
    | draft => rfl
    | onChain => rw [hwas] at hjoin; cases hjoin
  | takeIn id =>
    obtain ⟨a', ha', hcustody⟩ := hm
    obtain ⟨a, ha, -⟩ := h.follows.assets.before ha'
    have hjoin := (h.custody.joins ha ha').le
    refine ⟨a, ha, ?_⟩
    rcases hcustody with hc | hc <;> rw [hc] at hjoin <;> cases hwas : a.custody <;>
      first | exact .inl rfl | exact .inr rfl | (rw [hwas] at hjoin; revert hjoin; decide)

end Brought

end Ledgers

/-! ## One move -/

/-- **A move raises what it reaches**: tokens, assets and their custody join
its goal. -/
structure Move.Raises (m : Move) (l l' : Ledgers) : Prop where
  nfts : Raised Nft.status (fun k s => k ∈ m.tokens l ∧ m.goal.nft = some s) l.nfts l'.nfts
  assets : Raised Asset.status (fun k s => k ∈ m.assets l ∧ m.goal.asset = some s)
    l.assets l'.assets
  custody : Raised Asset.custody (fun k s => k ∈ m.assets l ∧ m.goal.custody = some s)
    l.assets l'.assets

namespace Ledgers

/-- What one move brings about: it raises what it reaches, and deals with
fractional tokens and offerings. -/
theorem Brought.single (hfollows : l.Follows l') (hraises : m.Raises l l')
    (hfnfts : ∀ k, Option.Rel (fun f f' =>
      (∀ d, .fractionalize k d = m → f'.standing = (.active, ⟨d, d⟩)) ∧
        ((∀ d, .fractionalize k d ≠ m) → f'.standing = f.standing)) (l.fnfts.get? k)
      (l'.fnfts.get? k))
    (hofferings : Raised Offering.onChainStatus (fun k s => .offer k = m ∧ s = .onChain)
      l.offerings l'.offerings)
    (hactive : ∀ k, Option.Rel (fun o o' => o'.status = o.status) (l.offerings.get? k)
      (l'.offerings.get? k)) : l.Brought (· = m) l' where
  follows := hfollows
  nfts := by simpa only [exists_eq_left] using hraises.nfts
  assets := by simpa only [exists_eq_left] using hraises.assets
  custody := by simpa only [exists_eq_left] using hraises.custody
  fnfts := hfnfts
  offerings := hofferings
  active := hactive

/-- What one move brings about that leaves fractional tokens and offerings
alone. -/
theorem Brought.single_of_eq (hfollows : l.Follows l') (hraises : m.Raises l l')
    (hfnfts : l'.fnfts = l.fnfts) (hofferings : l'.offerings = l.offerings)
    (hfractionalize : ∀ k d, .fractionalize k d ≠ m) (hoffer : ∀ k, .offer k ≠ m) :
    l.Brought (· = m) l' := by
  refine .single hfollows hraises ?_ ?_ ?_
  · rw [hfnfts]
    exact fun k => .self fun _ _ => ⟨fun d hd => absurd hd (hfractionalize k d), fun _ => rfl⟩
  · rw [hofferings]
    exact .of_reached fun k _ hcalls => absurd hcalls.1 (hoffer k)
  · rw [hofferings]
    exact fun k => .self fun _ _ => rfl

/-- The asset behind a token. -/
theorem assets_mint {id : String} {n : Nft} (hn : l.nfts.get? id = some n) :
    (Move.mint id).assets l = [n.assetId] := by
  simp [Move.assets, Move.tokens, assetsBehind, hn]

theorem tokens_fractionalize {id : String} {d : Decimal} {f : Fnft}
    (hf : l.fnfts.get? id = some f) : (Move.fractionalize id d).tokens l = f.nftIds := by
  simp [Move.tokens, hf]

theorem tokens_offer {id : String} {o : Offering} (ho : l.offerings.get? id = some o) :
    (Move.offer id).tokens l = OfferingRef.nftsOf l o := by
  simp [Move.tokens, ho]

end Ledgers

/-- **A token that is minted** was waiting for it. -/
theorem TokenRef.brought_mint {p : TokenRef} {owner : Address}
    (h : p.mint owner clock l = .ok (l', fx)) :
    (Move.mint p.tokenId).Open l ∧ l.Brought (· = .mint p.tokenId) l' := by
  have hfollows := follows_mint h
  obtain ⟨nft, nfts, assets, hnft, hdraft, hnfts, hassets, rfl, -⟩ := of_mint h
  obtain ⟨asset, hasset⟩ := (get?_update (k := nft.assetId) hassets).1
  have hbehind : (Move.mint p.tokenId).assets l = [nft.assetId] := Ledgers.assets_mint hnft
  have hraises : (Move.mint p.tokenId).Raises l { l with nfts := nfts, assets := assets } := by
    constructor
    case nfts =>
      refine (rewrites_update hnfts).raised fun k hk n t hn => ?_
      rw [eq_of_mem_singleton hnft hk hn]
      show NftStatus.minted = advance nft.status .minted
      rw [hdraft]
      rfl
    case assets =>
      rw [hbehind]
      exact (rewrites_update hassets).raised fun _ _ _ _ _ => rfl
    case custody =>
      rw [hbehind]
      exact (rewrites_update hassets).raised fun _ _ _ _ _ => rfl
  exact ⟨⟨nft, hnft, hdraft, asset, hasset⟩,
    .single_of_eq hfollows hraises rfl rfl nofun nofun⟩

/-- **A fractional token that is minted** was waiting for it. -/
theorem FnftMinted.brought_mint {o : Origin} {p : FnftMinted} {supply : Decimal} (hl : l.Keyed)
    (h : p.mint o supply clock l = .ok (l', fx)) :
    (Move.fractionalize p.fnftId supply).Open l ∧
      l.Brought (· = .fractionalize p.fnftId supply) l' := by
  have hfollows := follows_mint h
  obtain ⟨fnft, fnfts, nfts, assets, hfnft, hdraft, hfnfts, hnfts, hassets, rfl, -⟩ := of_mint h
  have htokens : (Move.fractionalize p.fnftId supply).tokens l = fnft.nftIds :=
    Ledgers.tokens_fractionalize hfnft
  have hbehind : (Move.fractionalize p.fnftId supply).assets l = l.assetsBehind fnft.nftIds :=
    congrArg l.assetsBehind htokens
  have hraises : (Move.fractionalize p.fnftId supply).Raises l
      { l with fnfts := fnfts, nfts := nfts, assets := assets } := by
    constructor
    case nfts =>
      rw [htokens]
      exact (rewrites_updateMany hl.nfts hnfts).raised fun _ _ _ _ _ => rfl
    case assets =>
      rw [hbehind]
      exact (rewrites_updateMany hl.assets hassets).raised fun _ _ _ _ _ => rfl
    case custody =>
      rw [hbehind]
      exact (rewrites_updateMany hl.assets hassets).raised fun _ _ _ _ _ => rfl
  refine ⟨⟨fnft, hfnft, hdraft⟩, .single hfollows hraises ?_ ?_ ?_⟩
  · refine fun k => (rewrites_update hfnfts).rel k (fun hk f => ⟨?_, fun _ => rfl⟩)
      fun hk f t hf => ⟨?_, fun hnone => ?_⟩
    · rintro d ⟨⟩
      exact absurd (List.mem_singleton_self _) hk
    · rintro d ⟨⟩
      rfl
    · exact absurd (by rw [List.mem_singleton.mp hk]) (hnone supply)
  · exact .of_reached fun _ _ hcalls => nomatch hcalls.1
  · exact fun k => .self fun _ _ => rfl

/-- **An offering that is created** was waiting for it. -/
theorem OfferingRef.brought_create {p : OfferingRef} (hl : l.Keyed)
    (h : p.create clock l = .ok (l', fx)) :
    (Move.offer p.offeringId).Open l ∧ l.Brought (· = .offer p.offeringId) l' := by
  have hfollows := follows_create h
  obtain ⟨offering, offerings, assets, hoffering, hactive, hdraft, hofferings, hassets, rfl, -⟩ :=
    of_create h
  have hbehind : (Move.offer p.offeringId).assets l = l.assetsBehind (nftsOf l offering) :=
    congrArg l.assetsBehind (Ledgers.tokens_offer hoffering)
  have hraises : (Move.offer p.offeringId).Raises l
      { l with offerings := offerings, assets := assets } := by
    constructor
    case nfts => exact .of_reached fun _ _ hcalls => nomatch hcalls.2
    case assets =>
      rw [hbehind]
      exact (rewrites_updateMany hl.assets hassets).raised fun _ _ _ _ _ => rfl
    case custody =>
      rw [hbehind]
      exact (rewrites_updateMany hl.assets hassets).raised fun _ _ _ _ _ => rfl
  have honChain : Raised Offering.onChainStatus
      (fun k s => k ∈ [p.offeringId] ∧ some OnChainStatus.onChain = some s)
      l.offerings offerings := by
    refine (rewrites_update hofferings).raised fun k hk o t ho => ?_
    rw [eq_of_mem_singleton hoffering hk ho]
    show OnChainStatus.onChain = advance offering.onChainStatus .onChain
    rw [hdraft]
    rfl
  refine ⟨⟨offering, hoffering, hactive, hdraft⟩, .single hfollows hraises ?_ ?_ ?_⟩
  · exact fun k => .self fun _ _ => ⟨nofun, fun _ => rfl⟩
  · exact honChain.congr fun k s => by
      rw [List.mem_singleton, Option.some.injEq, Move.offer.injEq, eq_comm (a := s)]
  · exact fun k => (rewrites_update hofferings).rel k (fun _ _ => rfl) fun _ _ _ _ => rfl

/-- **An asset that is taken in** was waiting for it. -/
theorem AssetRef.brought_takeIn {p : AssetRef} (h : p.takeIn clock l = .ok (l', fx)) :
    (Move.takeIn p.assetId).Open l ∧ l.Brought (· = .takeIn p.assetId) l' := by
  have hfollows := follows_takeIn h
  obtain ⟨asset, assets, hasset, hcustody, hassets, rfl, -⟩ := of_takeIn h
  have hraises : (Move.takeIn p.assetId).Raises l { l with assets := assets } := by
    constructor
    case nfts => exact .of_reached fun _ _ hcalls => nomatch hcalls.2
    case assets => exact (rewrites_update hassets).raised fun _ _ _ _ _ => rfl
    case custody =>
      refine (rewrites_update hassets).raised fun k hk a t ha => ?_
      rw [eq_of_mem_singleton hasset hk ha]
      show CustodyStatus.frac = advance asset.custody .frac
      rcases hcustody with hc | hc <;> rw [hc] <;> rfl
  exact ⟨⟨asset, hasset, hcustody⟩, .single_of_eq hfollows hraises rfl rfl nofun nofun⟩

/-! ## Moves that are overtaken -/

namespace Ledgers

/-- A move that takes a token along takes the asset behind it along, which is
converted at least. -/
theorem asset_called {t : NftStatus} {id k : String} (hid : id ∈ m.tokens l)
    (ht : m.goal.nft = some t) (hk : k ∈ l.assetsBehind [id]) :
    k ∈ m.assets l ∧ ∃ s, m.goal.asset = some s ∧
      Pipeline.place AssetStatus.convertedToNft ≤ Pipeline.place s := by
  have hbehind : k ∈ l.assetsBehind (m.tokens l) := by
    rw [mem_assetsBehind] at hk ⊢
    obtain ⟨id', hid', hn⟩ := hk
    exact ⟨id', List.mem_singleton.mp hid' ▸ hid, hn⟩
  cases m with
  | mint => exact ⟨hbehind, _, rfl, Nat.le_refl _⟩
  | fractionalize => exact ⟨hbehind, _, rfl, by decide⟩
  | offer => cases ht
  | takeIn => cases ht

namespace Brought

/-- **A token that is a draft no more** was taken along by a move, and so was
the asset behind it. -/
theorem overtaken_mint {id : String} (h : l.Brought S l') (hm : (Move.mint id).Open l)
    (hm' : ¬ (Move.mint id).Open l') : l'.Brought (· = .mint id) l' := by
  obtain ⟨n, hn, hdraft, a, ha⟩ := hm
  obtain ⟨n', hn', hlater⟩ := h.follows.nfts.still _ _ hn
  have hminted : Pipeline.place NftStatus.minted ≤ Pipeline.place n'.status := by
    cases hstatus : n'.status with
    | draft =>
      obtain rfl : n' = n := hlater.resolve_right fun hbecomes => hbecomes.2.status hstatus
      obtain ⟨a', ha', -⟩ := h.follows.assets.still _ _ ha
      exact absurd ⟨n', hn', hstatus, a', ha'⟩ hm'
    | _ => decide
  obtain ⟨t, ⟨m, hm, hid, ht⟩, -⟩ :=
    (h.nfts.joins hn hn').called hminted (by rw [hdraft]; decide)
  have hraises : (Move.mint id).Raises l' l' := by
    constructor
    case nfts =>
      refine .of_reached ?_
      rintro k s ⟨hk, ⟨⟩⟩ b hb
      rwa [eq_of_mem_singleton hn' hk hb]
    case assets =>
      refine .of_reached ?_
      rintro k s ⟨hk, ⟨⟩⟩ b' hb'
      obtain ⟨b, hb, -⟩ := h.follows.assets.before hb'
      rw [h.follows.assets_eq] at hk
      obtain ⟨hk, s, hs, hle⟩ := asset_called hid ht hk
      exact Nat.le_trans hle ((h.assets.joins hb hb').reached ⟨m, hm, hk, hs⟩)
    case custody => exact .of_reached fun _ _ hcalls => nomatch hcalls.2
  exact .single_of_eq (.refl l') hraises rfl rfl nofun nofun

/-- **A fractional token that is a draft no more** was minted by a move. -/
theorem overtaken_fractionalize {id : String} {d : Decimal} (h : l.Brought S l')
    (hm : (Move.fractionalize id d).Open l) (hm' : ¬ (Move.fractionalize id d).Open l') :
    ∃ d', S (.fractionalize id d') := by
  obtain ⟨f, hf, hdraft⟩ := hm
  obtain ⟨f', hf', -⟩ := h.follows.fnfts.still _ _ hf
  refine Classical.byContradiction fun hnone => hm' ⟨f', hf', ?_⟩
  have hstanding := ((h.fnfts id).of_eq_some hf hf').2 fun d hd => hnone ⟨d, hd⟩
  exact (congrArg Prod.fst hstanding).trans hdraft

/-- **An offering that is a draft no more** was offered by a move. -/
theorem overtaken_offer {id : String} (h : l.Brought S l') (hm : (Move.offer id).Open l)
    (hm' : ¬ (Move.offer id).Open l') : S (.offer id) := by
  obtain ⟨o, ho, hactive, hdraft⟩ := hm
  obtain ⟨o', ho', -⟩ := h.follows.offerings.still _ _ ho
  have hstatus := (h.active id).of_eq_some ho ho'
  have honChain : Pipeline.place OnChainStatus.onChain ≤ Pipeline.place o'.onChainStatus := by
    cases hwas : o'.onChainStatus with
    | draft => exact absurd ⟨o', ho', hstatus.trans hactive, hwas⟩ hm'
    | onChain => exact Nat.le_refl _
  obtain ⟨-, ⟨hoffer, -⟩, -⟩ :=
    (h.offerings.joins ho ho').called honChain (by rw [hdraft]; decide)
  exact hoffer

/-- **An asset that waits no more** is in custody. -/
theorem overtaken_takeIn {id : String} (h : l.Brought S l') (hm : (Move.takeIn id).Open l)
    (hm' : ¬ (Move.takeIn id).Open l') : l'.Brought (· = .takeIn id) l' := by
  obtain ⟨a, ha, -⟩ := hm
  obtain ⟨a', ha', -⟩ := h.follows.assets.still _ _ ha
  have hfrac : Pipeline.place CustodyStatus.frac ≤ Pipeline.place a'.custody := by
    cases hcustody : a'.custody with
    | fractor => exact absurd ⟨a', ha', .inl hcustody⟩ hm'
    | inReview => exact absurd ⟨a', ha', .inr hcustody⟩ hm'
    | _ => decide
  have hraises : (Move.takeIn id).Raises l' l' := by
    constructor
    case nfts => exact .of_reached fun _ _ hcalls => nomatch hcalls.2
    case assets => exact .of_reached fun _ _ hcalls => nomatch hcalls.2
    case custody =>
      refine .of_reached ?_
      rintro k s ⟨hk, ⟨⟩⟩ b hb
      rwa [eq_of_mem_singleton ha' hk hb]
  exact .single_of_eq (.refl l') hraises rfl rfl nofun nofun

/-- **A move that was open and is not any more** was overtaken: it makes no
difference. -/
theorem overtaken (h : l.Brought S l') (hm : m.Open l) (hm' : ¬ m.Open l')
    (hone : ∀ k d d', m = .fractionalize k d → S (.fractionalize k d') → d = d') :
    l'.Brought (· = m) l' := by
  cases m with
  | mint id => exact h.overtaken_mint hm hm'
  | fractionalize id d =>
    obtain ⟨d', hd'⟩ := h.overtaken_fractionalize hm hm'
    obtain rfl := hone id d d' rfl hd'
    exact h.again fun _ heq => heq ▸ hd'
  | offer id =>
    have hoffer := h.overtaken_offer hm hm'
    exact h.again fun _ heq => heq ▸ hoffer
  | takeIn id => exact h.overtaken_takeIn hm hm'

end Brought

/-! ## Agreement -/

/-- **Ledgers that agree on the asset pipeline**: on the status of every token,
the status and the custody of every asset, the status and the supplies of every
fractional token, and on which offerings are on their chain. -/
structure Agree (l l' : Ledgers) : Prop where
  nfts : ∀ k, (l.nfts.get? k).map Nft.status = (l'.nfts.get? k).map Nft.status
  assets : ∀ k, (l.assets.get? k).map Asset.status = (l'.assets.get? k).map Asset.status
  custody : ∀ k, (l.assets.get? k).map Asset.custody = (l'.assets.get? k).map Asset.custody
  fnfts : ∀ k, (l.fnfts.get? k).map Fnft.standing = (l'.fnfts.get? k).map Fnft.standing
  offerings : ∀ k, (l.offerings.get? k).map Offering.onChainStatus =
    (l'.offerings.get? k).map Offering.onChainStatus

/-- **The same moves come to the same**, in whatever order they were made. -/
theorem Brought.agree (h : l.Brought S l') (h' : l.Brought S l'') : l'.Agree l'' where
  nfts := h.nfts.map_eq h'.nfts
  assets := h.assets.map_eq h'.assets
  custody := h.custody.map_eq h'.custody
  fnfts k := by
    have hrel := h.fnfts k
    have hrel' := h'.fnfts k
    generalize l.fnfts.get? k = x, l'.fnfts.get? k = y, l''.fnfts.get? k = z at hrel hrel'
    cases hrel with
    | none => cases hrel'; rfl
    | some hf =>
      obtain ⟨f, rfl, hf'⟩ := hrel'.of_some
      refine congrArg some ?_
      by_cases hminted : ∃ d, S (.fractionalize k d)
      · obtain ⟨d, hd⟩ := hminted
        rw [hf.1 d hd, hf'.1 d hd]
      · rw [hf.2 fun d hd => hminted ⟨d, hd⟩, hf'.2 fun d hd => hminted ⟨d, hd⟩]
  offerings := h.offerings.map_eq h'.offerings

end Ledgers

end ChainLedger
