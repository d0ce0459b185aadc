import ChainLedger.Proofs.Decimal.Difference
import ChainLedger.Proofs.Transition.Writing

/-!
# What events do to supplies

An offering and a fractional token have a supply: so much in all, and so much
of it available. A deposit draws on two of them, and asks of the rounded
difference whether there is enough; that is as good as asking of the exact
numbers (`Supply.drawn_sub?`). All other events leave supplies as they are,
except that a draft gets a supply of its own when it is minted
(`Event.Changes.draws`). So supplies that are within their bounds stay so
(`Event.withinSupply_of_leads`).
-/

namespace ChainLedger

open Collection

/-- How much there is in all, and how much of it is available. -/
structure Supply where
  total : Decimal
  available : Decimal

/-- The supply of an offering. -/
def Offering.supply (o : Offering) : Supply := ⟨o.totalSupply, o.availableSupply⟩

/-- The supply of a fractional token. -/
def Fnft.supply (f : Fnft) : Supply := ⟨f.totalSupply, f.availableSupply⟩

namespace Supply

variable {s s' s'' : Supply}

/-- **A supply within its bounds**: what is available is not negative, and not
more than there is. -/
structure Within (s : Supply) : Prop where
  nonneg : 0 ≤ s.available.toRat
  le_total : s.available.toRat ≤ s.total.toRat

/-- **A supply that was drawn on at most**: as much in all, no more of it
available, and not overdrawn. -/
structure Drawn (s s' : Supply) : Prop where
  total : s'.total = s.total
  le : s'.available.toRat ≤ s.available.toRat
  nonneg : 0 ≤ s.available.toRat → 0 ≤ s'.available.toRat

theorem Drawn.refl (s : Supply) : s.Drawn s := ⟨rfl, le_rfl, id⟩

theorem Drawn.trans (h : s.Drawn s') (h' : s'.Drawn s'') : s.Drawn s'' :=
  ⟨h'.total.trans h.total, h'.le.trans h.le, fun hs => h'.nonneg (h.nonneg hs)⟩

/-- A supply that is drawn on stays within its bounds. -/
theorem Drawn.within (h : s.Drawn s') (hs : s.Within) : s'.Within where
  nonneg := h.nonneg hs.nonneg
  le_total := h.total ▸ h.le.trans hs.le_total

variable {total available amount rest : Decimal}

/-- **A supply is drawn on** by an amount that is not negative, if the rounded
rest is not negative. -/
theorem drawn_sub? (hamount : ¬ amount ≤ .zero) (hrest : available.sub? amount = some rest)
    (hnonneg : ¬ rest < .zero) : Drawn ⟨total, available⟩ ⟨total, rest⟩ := by
  have hpos : ¬ amount.toRat ≤ 0 := by rwa [← Decimal.toRat_zero, ← Decimal.le_iff]
  exact ⟨rfl, Decimal.toRat_sub?_le (not_le.mp hpos).le hrest,
    fun _ => Decimal.not_lt_zero_iff.mp hnonneg⟩

/-- What the chain gives a fractional token is not negative. -/
theorem within_of_supplyOf {raw decimals : Nat} {d : Decimal} (h : supplyOf raw decimals = .ok d) :
    Within ⟨d, d⟩ := by
  refine ⟨?_, le_rfl⟩
  unfold supplyOf at h
  split at h
  · cases h
  · split at h
    · cases h
    · split at h
      · next parts hparts =>
        cases h
        have hsign : parts.negative = false :=
          (Decimal.negative_of_ofParts? hparts).trans (decide_eq_false (by omega))
        rw [← Decimal.not_lt_zero_iff, Decimal.lt_zero_iff, Decimal.coeff]
        simp [Decimal.normalize, hsign]
      · cases h

end Supply

variable {l l' : Ledgers} {clock : Clock} {fx : List Effect} {told : List Exchange} {c : Commit}

/-! ## Minting -/

namespace FnftMinted

variable {o : Origin} {p : FnftMinted} {supply : Decimal}

open Attempt in
/-- The minting of a fractional token is told one thing on its way to its
commit: the supply, in smallest units. -/
theorem of_leads (h : (p.attempt o l).Leads told (.commit c)) :
    ∃ raw decimals supply, told = [⟨.supply o.chain p.tokenAddress, .ok (raw, decimals)⟩] ∧
      supplyOf raw decimals = .ok supply ∧ c = p.mint o supply := by
  simp only [attempt, leads_check, leads_ask, leads_commit] at h
  obtain ⟨-, -, x, told', rfl, supply, hsupply, rfl, rfl⟩ := h
  unfold FnftMinted.supply at hsupply
  obtain ⟨⟨raw, decimals⟩, rfl, hsupply⟩ := bind_eq_ok.mp hsupply
  exact ⟨raw, decimals, supply, rfl, mapError_eq_ok.mp hsupply, rfl⟩

/-- The supply of a fractional token that was minted. -/
theorem supply_mint (h : p.mint o supply clock l = .ok (l', fx)) :
    l'.fnfts.Holds p.fnftId (·.supply = ⟨supply, supply⟩) := by
  obtain ⟨-, fnfts, -, -, -, -, hfnfts, -, -, rfl, -⟩ := of_mint h
  exact holds_update hfnfts fun _ _ _ => rfl

end FnftMinted

/-! ## Every event -/

/-- A fractional token is the draft that an event mints, and is active then. -/
structure Fnft.MintedBy (p : Payload) (a b : Fnft) : Prop where
  own : ∃ q, p = .mintFnft q ∧ q.fnftId = a.id
  draft : a.status = .draft
  active : b.status = .active

/-- **What an event does to supplies.** -/
structure Event.Draws (e : Event) (l l' : Ledgers) : Prop where
  /-- Offerings are drawn on at most. -/
  offerings : Revises (fun a b => a.supply.Drawn b.supply) l.offerings l'.offerings
  /-- So are fractional tokens, except for a draft that is minted. -/
  fnfts : Revises (fun a b => a.supply.Drawn b.supply ∨ Fnft.MintedBy e.payload a b)
    l.fnfts l'.fnfts
  /-- A deposit draws no more than there is. -/
  covered : ∀ p, e.payload = .deposit p → ∃ offering fnft,
    l.offerings.get? p.offeringId = some offering ∧
      l.fnfts.get? offering.fnftId = some fnft ∧
      p.amount.toRat ≤ offering.availableSupply.toRat ∧
      p.amount.toRat ≤ fnft.availableSupply.toRat

namespace Event

variable {e : Event}

/-- **Every event draws on supplies at most**, or mints a draft. -/
theorem Changes.draws (hl : l.Keyed) (h : e.Changes clock l l' fx) : e.Draws l l' := by
  obtain ⟨w, hw, hbetween⟩ := h.writes hl
  obtain ⟨o, p⟩ := e
  change p.Writes l w at hw
  -- What is written to most documents is not about their supply.
  have ho (hsame : ∀ a t, (Document.stamp t (w.offerings.write a)).supply = a.supply) :
      Revises (fun a b => a.supply.Drawn b.supply) l.offerings l'.offerings :=
    hbetween.offerings.revises (fun a => .refl _) fun _ _ a t _ => hsame a t ▸ .refl _
  have hf (hsame : ∀ a t, (Document.stamp t (w.fnfts.write a)).supply = a.supply) :
      Revises (fun a b => a.supply.Drawn b.supply ∨ Fnft.MintedBy p a b) l.fnfts l'.fnfts :=
    hbetween.fnfts.revises (fun a => .inl (.refl _)) fun _ _ a t _ => .inl (hsame a t ▸ .refl _)
  cases hw with
  | mintFnft hfnft hdraft =>
    refine ⟨ho fun _ _ => rfl, ?_, nofun⟩
    refine hbetween.fnfts.revises (fun a => .inl (.refl _)) fun k hk a t ha => .inr ?_
    obtain rfl := eq_of_mem_singleton hfnft hk ha
    exact ⟨⟨_, rfl, (hl.fnfts _ _ hfnft).symm⟩, hdraft, rfl⟩
  | @deposit p offering fnft offeringRest fnftRest soldValue hamount hoffering honChain hfnft hrest
      hnonneg hrest' hnonneg' hsold =>
    refine ⟨?_, ?_, ?_⟩
    · refine hbetween.offerings.revises (fun a => .refl _) fun k hk a t ha => ?_
      obtain rfl := eq_of_mem_singleton hoffering hk ha
      exact Supply.drawn_sub? hamount hrest hnonneg
    · refine hbetween.fnfts.revises (fun a => .inl (.refl _)) fun k hk a t ha => .inl ?_
      obtain rfl := eq_of_mem_singleton hfnft hk ha
      exact Supply.drawn_sub? hamount hrest' hnonneg'
    · rintro _ ⟨⟩
      exact ⟨offering, fnft, hoffering, hfnft, Decimal.le_of_sub? hrest hnonneg,
        Decimal.le_of_sub? hrest' hnonneg'⟩
  | aside haside =>
    refine ⟨ho fun _ _ => rfl, hf fun _ _ => rfl, ?_⟩
    rintro q rfl
    cases haside
  | _ => exact ⟨ho fun _ _ => rfl, hf fun _ _ => rfl, nofun⟩

end Event

/-- **All supplies are within their bounds.** -/
structure Ledgers.WithinSupply (l : Ledgers) : Prop where
  offerings : ∀ k o, l.offerings.get? k = some o → o.supply.Within
  fnfts : ∀ k f, l.fnfts.get? k = some f → f.supply.Within

/-- **Every event leaves supplies within their bounds**: those that it draws
on, and the one that it was told of. -/
theorem Event.withinSupply_of_leads {e : Event} {verify : Bool} (hl : l.Keyed)
    (hs : l.WithinSupply) (hlead : (e.attempt verify l).Leads told (.commit c))
    (hc : c clock l = .ok (l', fx)) : l'.WithinSupply := by
  have hdraws := Changes.draws hl ⟨c, commits_of_leads hlead, hc⟩
  constructor
  · intro k o ho
    obtain ⟨a, ha, hdrawn⟩ := hdraws.offerings.before ho
    exact hdrawn.within (hs.offerings k a ha)
  · intro k f hf
    obtain ⟨a, ha, hdrawn | ⟨⟨q, hq, hid⟩, -, -⟩⟩ := hdraws.fnfts.before hf
    · exact hdrawn.within (hs.fnfts k a ha)
    · -- The draft that was minted has the supply that the chain gave it.
      obtain ⟨o, p⟩ := e
      obtain rfl : p = .mintFnft q := hq
      obtain ⟨raw, decimals, supply, -, hsupply, rfl⟩ := FnftMinted.of_leads hlead
      obtain ⟨b, hb, hminted⟩ := FnftMinted.supply_mint hc
      have hk : a.id = k := hl.fnfts k a ha
      rw [hid, hk] at hb
      obtain rfl := Option.some.inj (hf.symm.trans hb)
      exact hminted ▸ Supply.within_of_supplyOf hsupply

end ChainLedger
