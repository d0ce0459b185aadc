import ChainLedger.Proofs.Transition.Token
import ChainLedger.Proofs.Transition.Offering
import ChainLedger.Proofs.Transition.Revenue
import ChainLedger.Transition.Route

/-!
# Where attempts lead

An attempt that is answered step by step comes to another attempt (`Leads`);
one that comes to a commit passed all of its checks, and `Payload.Commits`
says for each kind of event which commit that is and what was checked of the
ledgers that were seen.

Two facts hold of every kind. The ledgers that a commit leaves are later ones
(`Event.Changes.follows`). And what was seen may be stale: if the commit goes
through on later ledgers, the same attempt would have been made from those
(`Event.attempt_eq_of_commit`).
-/

namespace ChainLedger

/-! ## Answers along the way -/

/-- A question that was asked, and its answer. -/
structure Exchange where
  question : Question
  answer : question.Answer

namespace Attempt

/-- **An attempt comes to another one** when its questions are answered. -/
inductive Leads : Attempt → List Exchange → Attempt → Prop
  | here {a : Attempt} : Leads a [] a
  | hear {q : Question} {next : q.Answer → Attempt} {x : q.Answer} {told : List Exchange}
      {b : Attempt} (h : Leads (next x) told b) : Leads (.ask q next) (⟨q, x⟩ :: told) b

variable {a b : Attempt} {c c' : Commit} {q : Question} {next : q.Answer → Attempt}
  {told : List Exchange} {α : Type}

/-- One more answer. -/
theorem Leads.snoc (h : a.Leads told (.ask q next)) (x : q.Answer) :
    a.Leads (told ++ [⟨q, x⟩]) (next x) := by
  generalize hb : Attempt.ask q next = b at h
  induction h with
  | here =>
    subst hb
    exact .hear .here
  | hear _ ih => exact .hear (ih hb)

theorem leads_commit : (commit c).Leads told (.commit c') ↔ told = [] ∧ c = c' := by
  constructor
  · intro h
    cases h
    exact ⟨rfl, rfl⟩
  · rintro ⟨rfl, rfl⟩
    exact .here

theorem leads_ask :
    (ask q next).Leads told (.commit c) ↔
      ∃ x told', told = ⟨q, x⟩ :: told' ∧ (next x).Leads told' (.commit c) := by
  constructor
  · intro h
    cases h with
    | hear h => exact ⟨_, _, rfl, h⟩
  · rintro ⟨x, told', rfl, h⟩
    exact .hear h

theorem leads_check {x : Except Refusal α} {next : α → Attempt} :
    (check x next).Leads told (.commit c) ↔
      ∃ a, x = .ok a ∧ (next a).Leads told (.commit c) := by
  cases x with
  | ok a =>
    constructor
    · intro h
      exact ⟨a, rfl, h⟩
    · rintro ⟨_, ha, h⟩
      cases ha
      exact h
  | error r => exact ⟨nofun, nofun⟩

/-- A transaction that is confirmed leads on, and changes nothing of what follows. -/
theorem Leads.of_confirm {verify : Bool} {o : Origin}
    (h : (confirm verify o (.commit c')).Leads told (.commit c)) : c' = c := by
  unfold confirm at h
  split at h
  · simp only [leads_check, leads_ask, leads_commit] at h
    obtain ⟨hash, -, x, told', -, ⟨⟩, -, -, hc⟩ := h
    exact hc
  · exact (leads_commit.mp h).2

end Attempt

/-! ## Commits of each kind -/

/-- **The commit that an event of a kind comes to**, and what was checked of
the ledgers that were seen. -/
inductive Payload.Commits (o : Origin) (seen : Ledgers) : Payload → Commit → Prop
  | setAdmin {p} : Commits o seen (.setAdmin p) p.apply
  | mintNft {p token owner} (h : p.mintable seen = .ok token) :
      Commits o seen (.mintNft p) (p.mint owner)
  | mintFnft {p supply} (h : p.mintable seen = .ok ()) :
      Commits o seen (.mintFnft p) (p.mint o supply)
  | createOffering {p} : Commits o seen (.createOffering p) p.create
  | deactivateFnft {p} : Commits o seen (.deactivateFnft p) p.deactivate
  | deactivateOffering {p} : Commits o seen (.deactivateOffering p) p.deactivate
  | depositNft {p} : Commits o seen (.depositNft p) p.takeIn
  | deposit {p txHash} (h : p.settleable o seen = .ok txHash) :
      Commits o seen (.deposit p) (p.settle txHash)
  | mergeFnft {p} : Commits o seen (.mergeFnft p) p.merge
  | approveRevenue {p plan rate commission} (h : p.plan o seen = .ok plan)
      (hc : RevenueApproval.commission plan = .ok commission) :
      Commits o seen (.approveRevenue p) (p.apply plan rate commission)
  | rejectRevenue {p} : Commits o seen (.rejectRevenue p) p.reject
  | claimRevenue {p txHash} (h : p.applicable o seen = .ok txHash) :
      Commits o seen (.claimRevenue p) (p.apply txHash)
  | redeemNft {p} : Commits o seen (.redeemNft p) p.redeem
  | stake {p txHash} (h : p.sensible .stake o = .ok txHash) :
      Commits o seen (.stake p) (p.apply .stake txHash)
  | unstake {p txHash} (h : p.sensible .unstake o = .ok txHash) :
      Commits o seen (.unstake p) (p.apply .unstake txHash)
  | createPool {p} : Commits o seen (.createPool p) p.apply

namespace Event

variable {e : Event} {verify : Bool} {seen l l' : Ledgers} {told : List Exchange} {c : Commit}
  {clock : Clock} {fx : List Effect}

open Attempt in
/-- An attempt that comes to a commit passed its checks. -/
theorem commits_of_leads (h : (e.attempt verify seen).Leads told (.commit c)) :
    e.payload.Commits e.origin seen c := by
  obtain ⟨o, p⟩ := e
  cases p with
  | setAdmin p => exact (leads_commit.mp h).2 ▸ .setAdmin
  | mintNft p =>
    simp only [attempt, TokenRef.attemptMint, leads_check, leads_ask, leads_commit] at h
    obtain ⟨token, htoken, x, -, -, owner, -, -, rfl⟩ := h
    exact .mintNft htoken
  | mintFnft p =>
    simp only [attempt, FnftMinted.attempt, leads_check, leads_ask, leads_commit] at h
    obtain ⟨⟨⟩, hp, x, -, -, supply, -, -, rfl⟩ := h
    exact .mintFnft hp
  | createOffering p => exact (leads_commit.mp h).2 ▸ .createOffering
  | deactivateFnft p => exact (leads_commit.mp h).2 ▸ .deactivateFnft
  | deactivateOffering p => exact (leads_commit.mp h).2 ▸ .deactivateOffering
  | depositNft p => exact (leads_commit.mp h).2 ▸ .depositNft
  | deposit p =>
    obtain ⟨txHash, hp, h⟩ := leads_check.mp h
    exact h.of_confirm ▸ .deposit hp
  | mergeFnft p => exact (leads_commit.mp h).2 ▸ .mergeFnft
  | approveRevenue p =>
    simp only [attempt, RevenueApproval.attempt, leads_check, leads_ask, leads_commit] at h
    obtain ⟨plan, hplan, x, -, -, rate, -, commission, hcommission, -, rfl⟩ := h
    exact .approveRevenue hplan hcommission
  | rejectRevenue p => exact (leads_commit.mp h).2 ▸ .rejectRevenue
  | claimRevenue p =>
    obtain ⟨txHash, hp, h⟩ := leads_check.mp h
    exact h.of_confirm ▸ .claimRevenue hp
  | redeemNft p => exact (leads_commit.mp h).2 ▸ .redeemNft
  | stake p =>
    simp only [attempt, StakeChange.attempt, leads_check, leads_commit] at h
    obtain ⟨txHash, hp, -, rfl⟩ := h
    exact .stake hp
  | unstake p =>
    simp only [attempt, StakeChange.attempt, leads_check, leads_commit] at h
    obtain ⟨txHash, hp, -, rfl⟩ := h
    exact .unstake hp
  | createPool p => exact (leads_commit.mp h).2 ▸ .createPool

/-- **An event changes ledgers** into others, by a commit that it comes to
from them. -/
def Changes (e : Event) (clock : Clock) (l l' : Ledgers) (fx : List Effect) : Prop :=
  ∃ c, e.payload.Commits e.origin l c ∧ c clock l = .ok (l', fx)

/-- **Every event leaves later ledgers.** -/
theorem Changes.follows (hl : l.Keyed) (h : e.Changes clock l l' fx) : l.Follows l' := by
  obtain ⟨c, hc, h⟩ := h
  generalize e.payload = p at hc
  cases hc with
  | setAdmin => exact AdminChange.follows_apply h
  | mintNft => exact TokenRef.follows_mint h
  | mintFnft => exact FnftMinted.follows_mint h
  | createOffering => exact OfferingRef.follows_create h
  | deactivateFnft => exact FnftRef.follows_deactivate h
  | deactivateOffering => exact OfferingRef.follows_deactivate h
  | depositNft => exact AssetRef.follows_takeIn h
  | deposit => exact FundDeposit.follows_settle h
  | mergeFnft => exact FnftRef.follows_merge h
  | approveRevenue hplan => exact RevenueApproval.follows_apply hl hplan h
  | rejectRevenue => exact OfferingRef.follows_reject h
  | claimRevenue => exact RevenueClaim.follows_apply h
  | redeemNft => exact TokenRef.follows_redeem h
  | stake => exact StakeChange.follows_apply h
  | unstake => exact StakeChange.follows_apply h
  | createPool => exact PoolCreated.follows_apply h

end Event

/-! ## Stale reads -/

section Stale

variable {seen l l' : Ledgers} {clock : Clock} {fx : List Effect} {o : Origin}

/-- A token that is minted now could have been read as mintable now. -/
theorem TokenRef.mintable_of_mint {p : TokenRef} {token : BitVec 256} {owner : Address}
    (hseen : p.mintable seen = .ok token) (h : p.mint owner clock l = .ok (l', fx)) :
    p.mintable l = .ok token := by
  obtain ⟨nft, -, -, hnft, hdraft, -⟩ := of_mint h
  simp only [mintable, bind_eq_ok, orRefuse_eq_ok, require_eq_ok, mapError_eq_ok] at hseen ⊢
  obtain ⟨-, -, ⟨⟩, -, htoken⟩ := hseen
  exact ⟨nft, hnft, (), hdraft, htoken⟩

theorem FnftMinted.mintable_of_mint {p : FnftMinted} {supply : Decimal}
    (h : p.mint o supply clock l = .ok (l', fx)) : p.mintable l = .ok () := by
  obtain ⟨fnft, -, -, -, hfnft, hdraft, -⟩ := of_mint h
  simp only [mintable, bind_eq_ok, orRefuse_eq_ok, require_eq_ok]
  exact ⟨fnft, hfnft, hdraft⟩

theorem FundDeposit.settleable_of_settle {p : FundDeposit} {txHash : String}
    (hseen : p.settleable o seen = .ok txHash) (h : p.settle txHash clock l = .ok (l', fx)) :
    p.settleable o l = .ok txHash := by
  obtain ⟨s, -⟩ := of_settle h
  simp only [settleable, bind_eq_ok, require_eq_ok, pure_eq_ok] at hseen ⊢
  obtain ⟨_, hhash, ⟨⟩, hamounts, ⟨⟩, -, rfl⟩ := hseen
  exact ⟨_, hhash, (), hamounts, (), Collection.not_contains_iff.mpr s.fresh, rfl⟩

theorem RevenueClaim.applicable_of_apply {p : RevenueClaim} {txHash : String}
    (hseen : p.applicable o seen = .ok txHash) (h : p.apply txHash clock l = .ok (l', fx)) :
    p.applicable o l = .ok txHash := by
  obtain ⟨request, item, -, -, -, hclaimable, -⟩ := of_apply h
  simp only [applicable, bind_eq_ok, pure_eq_ok] at hseen ⊢
  obtain ⟨_, hhash, -, -, rfl⟩ := hseen
  exact ⟨_, hhash, _, hclaimable, rfl⟩

/-- **A plan that is carried out is not stale**: the watermark says that the
offering is the one that was seen. -/
theorem RevenueApproval.plan_of_apply {p : RevenueApproval} {plan : Plan}
    {rate commission : Decimal} (hs : seen.Keyed) (hf : seen.Follows l)
    (hseen : p.plan o seen = .ok plan)
    (h : p.apply plan rate commission clock l = .ok (l', fx)) : p.plan o l = .ok plan := by
  obtain ⟨offering, -, -, hnow, hmark, -⟩ := of_apply h
  obtain ⟨hid, hthen⟩ := Plan.offering_eq hs hseen
  obtain ⟨later, hlater, hl⟩ := hf.offerings.still _ _ hthen
  obtain rfl := Option.some.inj (hnow.symm.trans hlater)
  obtain rfl := hl.eq_of_updatedAt hmark
  rw [hid] at hnow hthen
  unfold RevenueApproval.plan at hseen ⊢
  rw [hnow, ← hthen]
  exact hseen

end Stale

namespace Event

variable {e : Event} {verify : Bool} {seen l l' : Ledgers} {told : List Exchange} {c : Commit}
  {clock : Clock} {fx : List Effect}

open Attempt in
/-- **Stale reads do not matter**: where the commit of an attempt goes
through, the same attempt is made from the ledgers of the commit. -/
theorem attempt_eq_of_commit (hs : seen.Keyed) (hf : seen.Follows l)
    (hseen : e.payload.Commits e.origin seen c) (h : c clock l = .ok (l', fx)) :
    e.attempt verify l = e.attempt verify seen := by
  obtain ⟨o, p⟩ := e
  cases hseen with
  | mintNft hp =>
    simp only [attempt, TokenRef.attemptMint, hp, TokenRef.mintable_of_mint hp h]
  | mintFnft hp =>
    simp only [attempt, FnftMinted.attempt, hp, FnftMinted.mintable_of_mint h]
  | deposit hp =>
    simp only [attempt, FundDeposit.attempt, hp, FundDeposit.settleable_of_settle hp h]
  | approveRevenue hp =>
    simp only [attempt, RevenueApproval.attempt, hp, RevenueApproval.plan_of_apply hs hf hp h]
  | claimRevenue hp =>
    simp only [attempt, RevenueClaim.attempt, hp, RevenueClaim.applicable_of_apply hp h]
  | _ => rfl

end Event

end ChainLedger
