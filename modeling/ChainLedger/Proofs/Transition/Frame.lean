import ChainLedger.Proofs.Transition.Route

/-!
# What events leave alone

The sales of the ledgers are the purchases, what wallets bought, and what is
left and sold of offerings and fractional tokens; only deposits change them,
and the first supply of a token comes with its minting. The earnings are the
revenue and what was approved of offerings; only approvals and claims change
them.
-/

namespace ChainLedger

open Collection

/-! ## Sales and earnings -/

/-- An offering of which nothing was sold in between. -/
structure Offering.SameSales (a b : Offering) : Prop where
  availableSupply : b.availableSupply = a.availableSupply
  soldValue : b.soldValue = a.soldValue

/-- An offering of which no revenue was approved in between. -/
structure Offering.SameEarnings (a b : Offering) : Prop where
  approved : b.revenue.approvedTransactions = a.revenue.approvedTransactions
  commission : b.revenue.platformCommission = a.revenue.platformCommission

/-- A fractional token of which nothing was sold in between, if it was minted
before. -/
def Fnft.SameSales (a b : Fnft) : Prop :=
  a.status ≠ .draft → b.availableSupply = a.availableSupply

/-- **Ledgers with the same sales.** -/
structure Ledgers.SameSales (l l' : Ledgers) : Prop where
  purchases : l'.purchases = l.purchases
  whitelist : l'.whitelist = l.whitelist
  offerings : Revises Offering.SameSales l.offerings l'.offerings
  fnfts : Revises Fnft.SameSales l.fnfts l'.fnfts

/-- **Ledgers with the same earnings.** -/
structure Ledgers.SameEarnings (l l' : Ledgers) : Prop where
  revenue : l'.revenue = l.revenue
  offerings : Revises Offering.SameEarnings l.offerings l'.offerings

variable {l l' : Ledgers} {clock : Clock} {fx : List Effect}

theorem Ledgers.SameSales.refl (l : Ledgers) : l.SameSales l where
  purchases := rfl
  whitelist := rfl
  offerings := .refl fun _ => ⟨rfl, rfl⟩
  fnfts := .refl fun _ _ => rfl

theorem Ledgers.SameEarnings.refl (l : Ledgers) : l.SameEarnings l where
  revenue := rfl
  offerings := .refl fun _ => ⟨rfl, rfl⟩

section Update

variable {now : Readings} {key : String} {f : Offering → Offering} {offerings : Collection Offering}
  {g : Fnft → Fnft} {fnfts : Collection Fnft}

/-- An update of an offering that does not look at its sales. -/
theorem Offering.sameSales_update (h : l.offerings.update now key f = .ok offerings)
    (hf : ∀ a : Offering, a.SameSales (f a)) : Revises SameSales l.offerings offerings :=
  revises_update h (fun _ => ⟨rfl, rfl⟩) fun a _ _ _ => ⟨(hf a).1, (hf a).2⟩

/-- An update of an offering that does not look at its earnings. -/
theorem Offering.sameEarnings_update (h : l.offerings.update now key f = .ok offerings)
    (hf : ∀ a : Offering, a.SameEarnings (f a)) : Revises SameEarnings l.offerings offerings :=
  revises_update h (fun _ => ⟨rfl, rfl⟩) fun a _ _ _ => ⟨(hf a).1, (hf a).2⟩

/-- An update of a fractional token that sells nothing of it. -/
theorem Fnft.sameSales_update (h : l.fnfts.update now key g = .ok fnfts)
    (hg : ∀ a, l.fnfts.get? key = some a → a.SameSales (g a)) :
    Revises SameSales l.fnfts fnfts :=
  revises_update h (fun _ _ => rfl) fun a _ ha _ => hg a ha

end Update

/-! ## Frames -/

/-- The events that sell. -/
def Payload.sells : Payload → Bool
  | .deposit _ => true
  | _ => false

/-- The events that earn or pay out. -/
def Payload.earns : Payload → Bool
  | .approveRevenue _ => true
  | .claimRevenue _ => true
  | _ => false

namespace Event.Changes

variable {e : Event}

/-- **Every event leaves alone** what its kind has no business with. -/
theorem frame (h : e.Changes clock l l' fx) :
    (e.payload.sells = false → l.SameSales l') ∧
      (e.payload.earns = false → l.SameEarnings l') := by
  obtain ⟨c, hc, h⟩ := h
  generalize e.payload = p at hc
  have hs := Ledgers.SameSales.refl l
  have he := Ledgers.SameEarnings.refl l
  cases hc with
  | setAdmin =>
    obtain ⟨-, -, -, -, -, rfl, -⟩ := AdminChange.of_apply h
    exact ⟨fun _ => { hs with }, fun _ => { he with }⟩
  | mintNft =>
    obtain ⟨-, -, -, -, -, -, -, rfl, -⟩ := TokenRef.of_mint h
    exact ⟨fun _ => { hs with }, fun _ => { he with }⟩
  | mintFnft =>
    obtain ⟨fnft, fnfts, -, -, hfnft, hdraft, hfnfts, -, -, rfl, -⟩ := FnftMinted.of_mint h
    have hf := Fnft.sameSales_update hfnfts fun f hget hne => by
      obtain rfl := Option.some.inj (hfnft.symm.trans hget)
      exact absurd hdraft hne
    exact ⟨fun _ => { hs with fnfts := hf }, fun _ => { he with }⟩
  | createOffering =>
    obtain ⟨-, offerings, -, -, -, -, hofferings, -, rfl, -⟩ := OfferingRef.of_create h
    have hos := Offering.sameSales_update hofferings fun _ => ⟨rfl, rfl⟩
    have hoe := Offering.sameEarnings_update hofferings fun _ => ⟨rfl, rfl⟩
    exact ⟨fun _ => { hs with offerings := hos }, fun _ => { he with offerings := hoe }⟩
  | deactivateFnft =>
    obtain ⟨-, fnfts, -, -, -, -, hfnfts, -, -, rfl, -⟩ := FnftRef.of_deactivate h
    have hf := Fnft.sameSales_update hfnfts fun _ _ _ => rfl
    exact ⟨fun _ => { hs with fnfts := hf }, fun _ => { he with }⟩
  | deactivateOffering =>
    obtain ⟨-, offerings, -, -, hofferings, rfl, -⟩ := OfferingRef.of_deactivate h
    have hos := Offering.sameSales_update hofferings fun _ => ⟨rfl, rfl⟩
    have hoe := Offering.sameEarnings_update hofferings fun _ => ⟨rfl, rfl⟩
    exact ⟨fun _ => { hs with offerings := hos }, fun _ => { he with offerings := hoe }⟩
  | depositNft =>
    obtain ⟨-, -, -, -, -, rfl, -⟩ := AssetRef.of_takeIn h
    exact ⟨fun _ => { hs with }, fun _ => { he with }⟩
  | deposit =>
    obtain ⟨s, rfl, -⟩ := FundDeposit.of_settle h
    have hoe := Offering.sameEarnings_update s.offering_updated fun _ => ⟨rfl, rfl⟩
    exact ⟨nofun, fun _ => { he with offerings := hoe }⟩
  | mergeFnft =>
    obtain ⟨-, fnfts, -, -, -, hfnfts, -, rfl, -⟩ := FnftRef.of_merge h
    have hf := Fnft.sameSales_update hfnfts fun _ _ _ => rfl
    exact ⟨fun _ => { hs with fnfts := hf }, fun _ => { he with }⟩
  | approveRevenue =>
    obtain ⟨-, offerings, credited, -, -, hofferings, hcredited, hpartner, -⟩ :=
      RevenueApproval.of_apply h
    have hos := Offering.sameSales_update hofferings fun _ => ⟨rfl, rfl⟩
    rw [RevenueApproval.of_creditPartner hpartner, RevenueApproval.of_creditShare hcredited]
    exact ⟨fun _ => { hs with offerings := hos }, nofun⟩
  | rejectRevenue =>
    obtain ⟨-, offerings, -, -, hofferings, rfl, -⟩ := OfferingRef.of_reject h
    have hos := Offering.sameSales_update hofferings fun _ => ⟨rfl, rfl⟩
    have hoe := Offering.sameEarnings_update hofferings fun _ => ⟨rfl, rfl⟩
    exact ⟨fun _ => { hs with offerings := hos }, fun _ => { he with offerings := hoe }⟩
  | claimRevenue =>
    obtain ⟨_, _, _, closed, _, -, hclosed, -, -, rfl, -⟩ := RevenueClaim.of_apply h
    rw [(RevenueClaim.follows_closeAll hclosed).2]
    exact ⟨fun _ => { hs with }, nofun⟩
  | redeemNft =>
    obtain ⟨-, -, -, -, -, -, -, rfl, -⟩ := TokenRef.of_redeem h
    exact ⟨fun _ => { hs with }, fun _ => { he with }⟩
  | stake =>
    obtain ⟨-, -, -, -, -, -, -, -, -, -, -, rfl, -⟩ := StakeChange.of_apply h
    exact ⟨fun _ => { hs with }, fun _ => { he with }⟩
  | unstake =>
    obtain ⟨-, -, -, -, -, -, -, -, -, -, -, rfl, -⟩ := StakeChange.of_apply h
    exact ⟨fun _ => { hs with }, fun _ => { he with }⟩
  | createPool =>
    obtain ⟨-, -, -, -, -, rfl, -⟩ := PoolCreated.of_apply h
    exact ⟨fun _ => { hs with }, fun _ => { he with }⟩

/-- An event that is no deposit leaves the sales alone. -/
theorem sameSales (h : e.Changes clock l l' fx) (hkind : e.payload.sells = false) :
    l.SameSales l' :=
  h.frame.1 hkind

/-- An event that is no approval and no claim leaves the earnings alone. -/
theorem sameEarnings (h : e.Changes clock l l' fx) (hkind : e.payload.earns = false) :
    l.SameEarnings l' :=
  h.frame.2 hkind

end Event.Changes

end ChainLedger
