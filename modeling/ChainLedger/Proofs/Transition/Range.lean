import ChainLedger.Proofs.Ledger.Refusal
import ChainLedger.Proofs.Ledger.Stage
import ChainLedger.Proofs.Transition.Supply

/-!
# No event traps

The operators whose results are taken to exist have them: the division of a
share, and the subtractions of a deposit as long as supplies are within their
bounds. So the checks of an attempt never trap by themselves
(`Event.repeats_attempt`), and a commit traps only where a watermark would
leave the calendar (`Event.traps_commit`).
-/

namespace ChainLedger

variable {l l' : Ledgers} {clock : Clock} {now : Readings} {P : Trap → Prop}

/-! ## Checks -/

/-- **The division of a share never traps**: a product that is in range has a
hundredth. -/
@[simp] theorem RevenueSplit.traps_share {amount rate : Decimal} :
    Traps P (RevenueSplit.share amount rate) := by
  rw [RevenueSplit.share, traps_bind]
  refine ⟨traps_orOverflow, fun product _ => ?_⟩
  obtain ⟨share, hshare⟩ := Decimal.exists_div_hundred product
  exact traps_trapped hshare

@[simp] theorem RevenueSplit.traps_of {amount platformRate bdRate : Decimal} {hasBd : Bool} :
    Traps P (RevenueSplit.of amount platformRate bdRate hasBd) := by
  have htaken (platform bd : Decimal) : Traps P (RevenueSplit.taken amount platform bd hasBd) := by
    unfold RevenueSplit.taken
    split <;> simp
  simp [RevenueSplit.of, htaken]

theorem RevenueApproval.traps_plan {o : Origin} {p : RevenueApproval} :
    Traps P (p.plan o l) := by
  simp [plan, Origin.requireTxHash, missing]

theorem FundDeposit.traps_settleable {o : Origin} {p : FundDeposit} :
    Traps P (p.settleable o l) := by
  simp [settleable, Origin.requireTxHash]

theorem RevenueClaim.traps_claimable {p : RevenueClaim} : Traps P (p.claimable l) := by
  refine traps_bind.mpr ⟨by simp [missing], fun request _ => traps_bind.mpr
    ⟨by simp, fun _ _ => traps_bind.mpr ⟨by simp [missing], fun item _ => ?_⟩⟩⟩
  split <;> simp

theorem RevenueClaim.traps_applicable {o : Origin} {p : RevenueClaim} :
    Traps P (p.applicable o l) := by
  simp [applicable, Origin.requireTxHash, RevenueClaim.traps_claimable]

theorem StakeChange.traps_sensible {d : StakeDirection} {o : Origin} {p : StakeChange} :
    Traps P (p.sensible d o) := by
  simp [sensible, Origin.requireTxHash]

theorem TokenRef.traps_mintable {p : TokenRef} : Traps P (p.mintable l) := by
  simp [mintable, missing]

theorem FnftMinted.traps_mintable {p : FnftMinted} : Traps P (p.mintable l) := by
  simp [mintable, missing]

/-! What is made of an answer traps only if the answer does. -/

theorem TokenRef.traps_ownerOr {p : TokenRef} {answer : Except Refusal Address} :
    Traps (fun t => answer = .error (.trap t)) (p.ownerOr answer) := by
  intro t ht
  unfold ownerOr at ht
  split at ht
  · cases ht
  · exact ht

theorem FnftMinted.traps_supply {answer : Except Refusal (Nat × Nat)} :
    Traps (fun t => answer = .error (.trap t)) (supply answer) := by
  refine traps_bind.mpr ⟨fun t ht => ht, fun a _ => ?_⟩
  exact traps_mapError.mpr nofun

theorem traps_confirmed {hash : Hash} {answer : Except Refusal (Option Receipt)} :
    Traps (fun t => answer = .error (.trap t)) (confirmed hash answer) := by
  unfold confirmed
  split
  · exact fun t ht => by cases ht; rfl
  · exact nofun
  · split <;> exact nofun

/-! ## Commits -/

theorem TokenRef.traps_mint {p : TokenRef} {owner : Address} :
    Traps (· = .instant) (p.mint owner clock l) := by
  simp [mint, missing]

theorem TokenRef.traps_redeem {p : TokenRef} : Traps (· = .instant) (p.redeem clock l) := by
  have hredeemable (nft : Nft) : Traps (· = .instant) (p.redeemable nft) := by
    unfold redeemable
    split <;> exact nofun
  simp [redeem, missing, hredeemable]

theorem AssetRef.traps_takeIn {p : AssetRef} : Traps (· = .instant) (p.takeIn clock l) := by
  simp [takeIn, missing]

theorem FnftMinted.traps_mint {o : Origin} {p : FnftMinted} {supply : Decimal} :
    Traps (· = .instant) (p.mint o supply clock l) := by
  simp [mint, missing]

theorem FnftRef.traps_deactivate {p : FnftRef} : Traps (· = .instant) (p.deactivate clock l) := by
  simp [deactivate, missing]

theorem FnftRef.traps_merge {p : FnftRef} : Traps (· = .instant) (p.merge clock l) := by
  simp [merge, missing]

theorem OfferingRef.traps_create {p : OfferingRef} : Traps (· = .instant) (p.create clock l) := by
  simp [create, missing]

theorem OfferingRef.traps_deactivate {p : OfferingRef} :
    Traps (· = .instant) (p.deactivate clock l) := by
  simp [deactivate, missing]

theorem OfferingRef.traps_reject {p : OfferingRef} : Traps (· = .instant) (p.reject clock l) := by
  simp [reject, missing]

theorem AdminChange.traps_apply {p : AdminChange} : Traps (· = .instant) (p.apply clock l) := by
  simp [apply, missing]

theorem StakeChange.traps_apply {d : StakeDirection} {p : StakeChange} {txHash : String} :
    Traps (· = .instant) (p.apply d txHash clock l) := by
  have hrecord (next : Decimal) : Traps (· = .instant) (p.record clock next l.stakes) := by
    unfold record
    split <;> simp
  simp [apply, missing, hrecord]

theorem PoolCreated.traps_apply {p : PoolCreated} : Traps (· = .instant) (p.apply clock l) := by
  simp [apply, missing]

/-! ## Deposits -/

/-- **The subtractions of a deposit never trap**: what is available and what
is asked for are not negative. -/
theorem Supply.exists_sub {s : Supply} {amount : Decimal} (hamount : ¬ amount ≤ .zero)
    (hs : s.Within) : ∃ rest, s.available.sub amount = .ok rest := by
  rw [Decimal.le_iff, Decimal.toRat_zero, not_le] at hamount
  obtain ⟨rest, hrest⟩ := Decimal.exists_sub? hs.nonneg hamount.le
  exact ⟨rest, Decimal.sub_eq_ok.mpr hrest⟩

namespace FundDeposit

variable {p : FundDeposit} {txHash : String}

theorem traps_settle (hl : l.WithinSupply) (hamount : ¬ p.amount ≤ .zero) :
    Traps (· = .instant) (p.settle txHash clock l) := by
  have hoffering {offering} (h : l.offerings.get? p.offeringId = some offering) :
      Traps (· = .instant) (p.offeringRest txHash offering) := by
    obtain ⟨rest, hrest⟩ : ∃ rest, offering.availableSupply.sub p.amount = .ok rest :=
      Supply.exists_sub hamount (hl.offerings _ _ h)
    simp [offeringRest, traps_trapped hrest]
  have hfnft {id fnft} (h : l.fnfts.get? id = some fnft) :
      Traps (· = .instant) (p.fnftRest txHash id fnft) := by
    obtain ⟨rest, hrest⟩ : ∃ rest, fnft.availableSupply.sub p.amount = .ok rest :=
      Supply.exists_sub hamount (hl.fnfts _ _ h)
    simp [fnftRest, traps_trapped hrest]
  have htotals : Traps (· = .instant) (p.totals l) := by
    unfold totals
    split
    · exact traps_ok
    · split <;> simp
  have hrecord (clock : Clock) (purchased deposited : Decimal) :
      Traps (· = .instant) (p.record clock purchased deposited l.whitelist) := by
    unfold record
    split <;> simp
  simp +contextual [settle, missing, orRefuse_eq_ok, hoffering, hfnft, htotals, hrecord]

end FundDeposit

/-! ## Revenue -/

namespace Ledgers

variable {beneficiary offering : String} {amount : Decimal}

theorem traps_credit {quote : Quote} :
    Traps (· = .instant) (l.credit clock beneficiary offering amount quote) := by
  unfold credit
  simp only [traps_bind, traps_require]
  refine ⟨by simp, fun _ _ => ?_⟩
  split <;> simp [topUp, openEntry]

theorem traps_markWithdrawn {currency : Option Address} :
    Traps (· = .instant) (l.markWithdrawn now beneficiary offering currency) := by
  simp [markWithdrawn]

end Ledgers

namespace RevenueApproval

variable {p : RevenueApproval} {plan : Plan} {rate commission : Decimal}

theorem traps_creditShare {offering : Offering} {beneficiary : String} {amount : Decimal} :
    Traps (· = .instant) (creditShare clock offering rate beneficiary amount l) := by
  unfold creditShare
  split
  · exact traps_map.mpr Ledgers.traps_credit
  · exact traps_ok

theorem traps_apply : Traps (· = .instant) (p.apply plan rate commission clock l) := by
  have hpartner (clock : Clock) (l : Ledgers) :
      Traps (· = .instant) (creditPartner clock plan rate l) := by
    unfold creditPartner
    split
    · exact traps_creditShare
    · exact traps_ok
  simp [apply, traps_creditShare, hpartner]

end RevenueApproval

namespace RevenueClaim

variable {p : RevenueClaim} {txHash : String}

theorem traps_closeAll {beneficiary : String} {offerings : List String} {total : Decimal} :
    Traps (· = .instant) (p.closeAll clock beneficiary offerings total l) := by
  induction offerings generalizing clock total l with
  | nil => exact traps_ok
  | cons offering offerings ih => simp [closeAll, Ledgers.traps_markWithdrawn, ih]

theorem traps_apply : Traps (· = .instant) (p.apply txHash clock l) := by
  simp [apply, traps_claimable, traps_closeAll]

end RevenueClaim

/-! ## Every event -/

namespace Event

variable {e : Event} {seen : Ledgers} {c : Commit}

/-- **No commit traps**, but at the end of the calendar. -/
theorem traps_commit (hl : l.WithinSupply) (hc : e.payload.Commits e.origin seen c) :
    Traps (· = .instant) (c clock l) := by
  obtain ⟨o, p⟩ := e
  cases hc with
  | setAdmin => exact AdminChange.traps_apply
  | mintNft => exact TokenRef.traps_mint
  | mintFnft => exact FnftMinted.traps_mint
  | createOffering => exact OfferingRef.traps_create
  | deactivateFnft => exact FnftRef.traps_deactivate
  | deactivateOffering => exact OfferingRef.traps_deactivate
  | depositNft => exact AssetRef.traps_takeIn
  | deposit hp =>
    obtain ⟨-, hamounts, -⟩ := FundDeposit.of_settleable hp
    exact FundDeposit.traps_settle hl fun hamount => hamounts (.inl hamount)
  | mergeFnft => exact FnftRef.traps_merge
  | approveRevenue => exact RevenueApproval.traps_apply
  | rejectRevenue => exact OfferingRef.traps_reject
  | claimRevenue => exact RevenueClaim.traps_apply
  | redeemNft => exact TokenRef.traps_redeem
  | stake => exact StakeChange.traps_apply
  | unstake => exact StakeChange.traps_apply
  | createPool => exact PoolCreated.traps_apply

end Event

/-! ## Attempts -/

namespace Attempt

variable {α : Type} {q : Question} {c : Commit}

/-- **An attempt traps only as it is told to**: a trap that it is refused with
is one of the answers. -/
def Repeats (a : Attempt) : Prop :=
  ∀ told t, a.Leads told (.refuse (.trap t)) → ∃ x ∈ told, x.answer = .error (.trap t)

theorem repeats_commit : (commit c).Repeats := nofun

theorem repeats_check {x : Except Refusal α} {next : α → Attempt} (hx : Traps (fun _ => False) x)
    (hnext : ∀ a, (next a).Repeats) : (check x next).Repeats := by
  cases x with
  | ok a => exact hnext a
  | error r =>
    intro told t h
    cases h
    exact (hx t rfl).elim

/-- A question is asked, and its answer is checked. -/
theorem repeats_ask {f : q.Answer → Except Refusal α} {next : α → Attempt}
    (hf : ∀ x, Traps (fun t => x = .error (.trap t)) (f x)) (hnext : ∀ a, (next a).Repeats) :
    (ask q fun x => check (f x) next).Repeats := by
  intro told t h
  cases h with
  | @hear _ _ x told _ h =>
    cases hx : f x with
    | ok a =>
      simp only [check, hx] at h
      obtain ⟨y, hy, htrap⟩ := hnext a told t h
      exact ⟨y, .tail _ hy, htrap⟩
    | error r =>
      simp only [check, hx] at h
      cases h
      exact ⟨⟨q, x⟩, .head _, hf x t hx⟩

theorem repeats_confirm {verify : Bool} {o : Origin} {next : Attempt} (h : next.Repeats) :
    (confirm verify o next).Repeats := by
  unfold confirm
  split
  · refine repeats_check (by simp [Origin.hash, Origin.requireTxHash]) fun hash => ?_
    exact repeats_ask (fun answer => traps_confirmed) fun _ => h
  · exact h

end Attempt

open Attempt in
/-- **No check of an attempt traps by itself.** -/
theorem Event.repeats_attempt (verify : Bool) (e : Event) (seen : Ledgers) :
    (e.attempt verify seen).Repeats := by
  obtain ⟨o, p⟩ := e
  cases p with
  | mintNft p =>
    exact repeats_check p.traps_mintable fun token =>
      repeats_ask (fun answer => TokenRef.traps_ownerOr) fun owner => repeats_commit
  | mintFnft p =>
    exact repeats_check p.traps_mintable fun _ =>
      repeats_ask (fun answer => FnftMinted.traps_supply) fun supply => repeats_commit
  | deposit p => exact repeats_check p.traps_settleable fun _ => repeats_confirm repeats_commit
  | approveRevenue p =>
    refine repeats_check p.traps_plan fun plan => repeats_ask (fun answer t ht => ht)
      fun rate => repeats_check ?_ fun _ => repeats_commit
    exact traps_orOverflow
  | claimRevenue p =>
    exact repeats_check p.traps_applicable fun _ => repeats_confirm repeats_commit
  | stake p => exact repeats_check p.traps_sensible fun _ => repeats_commit
  | unstake p => exact repeats_check p.traps_sensible fun _ => repeats_commit
  | _ => exact repeats_commit

end ChainLedger
