import ChainLedger.Proofs.Transition.Offering

/-!
# Lookups after a deposit

A deposit adds a purchase, draws on its offering and on the fractional token
that the offering names, and adds to what its buyer bought. Under all other
keys everything is as it was.
-/

namespace ChainLedger

open Collection

variable {l l' : Ledgers} {clock : Clock} {fx : List Effect}

namespace FundDeposit

variable {p : FundDeposit} {txHash : String}

/-- What a wallet bought so far; nothing if there is no record of it. -/
def bought (whitelist : Collection WhitelistEntry) (key : String)
    (total : WhitelistEntry → Decimal) : Decimal :=
  ((whitelist.get? key).map total).getD .zero

section Bought

variable {w w' : Collection WhitelistEntry} {key : String} {total : WhitelistEntry → Decimal}

theorem bought_of_get? {a : WhitelistEntry} (h : w.get? key = some a) :
    bought w key total = total a := by
  rw [bought, h]
  rfl

theorem bought_congr (h : w'.get? key = w.get? key) : bought w' key total = bought w key total := by
  rw [bought, h, bought]

end Bought

/-- The totals of a deposit are sums on top of what was bought, from nothing
if there is no record. -/
theorem of_totals {purchased deposited : Decimal}
    (h : p.totals l = .ok (purchased, deposited)) :
    (bought l.whitelist p.whitelistKey (·.purchasedAmount)).add? p.amount = some purchased ∧
      (bought l.whitelist p.whitelistKey (·.depositedValue)).add? p.value = some deposited := by
  unfold totals at h
  unfold bought
  cases hget : l.whitelist.get? p.whitelistKey with
  | none =>
    rw [hget] at h
    cases h
    exact ⟨rfl, rfl⟩
  | some w =>
    simp only [hget] at h
    split at h
    · next hpurchased hdeposited =>
      cases h
      exact ⟨hpurchased, hdeposited⟩
    · cases h

/-- The record of what the buyer bought is the only one that is written. -/
theorem get?_record {purchased deposited : Decimal} {w w' : Collection WhitelistEntry}
    (hfirst : w.get? p.whitelistKey = none → purchased = p.amount ∧ deposited = p.value)
    (h : p.record clock purchased deposited w = .ok w') :
    (∃ a, w'.get? p.whitelistKey = some a ∧ a.purchasedAmount = purchased ∧
      a.depositedValue = deposited) ∧
      ∀ k, k ≠ p.whitelistKey → w'.get? k = w.get? k := by
  unfold record at h
  split at h
  · exact ⟨holds_update h fun _ _ _ => ⟨rfl, rfl⟩, fun k hk => get?_update_of_ne h hk⟩
  · next hfree =>
    obtain ⟨hpurchased, hdeposited⟩ := hfirst (not_contains_iff.mp hfree)
    obtain ⟨-, t, -, hget⟩ := get?_insert h
    refine ⟨⟨_, (hget _).trans (if_pos rfl), hpurchased.symm, hdeposited.symm⟩, fun k hk => ?_⟩
    exact (hget k).trans (if_neg hk)

variable (h : p.settle txHash clock l = .ok (l', fx))

include h

/-- **A deposit adds one purchase** under its hash. -/
theorem purchases_settle :
    l.purchases.get? txHash = none ∧ ∃ t, ∀ k, l'.purchases.get? k =
      if k = txHash then some ⟨txHash, p.offeringId, p.buyer, p.amount, p.value, t⟩
      else l.purchases.get? k := by
  obtain ⟨s, rfl, -⟩ := of_settle h
  obtain ⟨-, t, -, hget⟩ := get?_insert s.purchase_inserted
  exact ⟨s.fresh, t, hget⟩

/-- **A deposit draws on its offering** and no other. -/
theorem offerings_settle (k : String) :
    Option.Rel (fun a b =>
      if p.offeringId = k then
        a.availableSupply.sub? p.amount = some b.availableSupply ∧
          a.soldValue.add? p.value = some b.soldValue
      else b.availableSupply = a.availableSupply ∧ b.soldValue = a.soldValue)
      (l.offerings.get? k) (l'.offerings.get? k) := by
  obtain ⟨s, rfl, -⟩ := of_settle h
  refine (rel_update s.offering_updated k).imp fun a b ha hab => ?_
  by_cases hk : p.offeringId = k
  · rw [if_pos hk] at hab ⊢
    obtain ⟨t, -, rfl⟩ := hab
    obtain rfl := Option.some.inj (s.offering_found.symm.trans (hk ▸ ha))
    exact ⟨(of_offeringRest s.offering_drawn).1, s.sold⟩
  · rw [if_neg hk] at hab ⊢
    rw [hab]
    exact ⟨rfl, rfl⟩

/-- **A deposit draws on the fractional token of its offering** and no other. -/
theorem fnfts_settle :
    ∃ offering, l.offerings.get? p.offeringId = some offering ∧ ∀ k,
      Option.Rel (fun a b =>
        if offering.fnftId = k then a.availableSupply.sub? p.amount = some b.availableSupply
        else b.availableSupply = a.availableSupply)
        (l.fnfts.get? k) (l'.fnfts.get? k) := by
  obtain ⟨s, rfl, -⟩ := of_settle h
  refine ⟨s.offering, s.offering_found, fun k => ?_⟩
  refine (rel_update s.fnft_updated k).imp fun a b ha hab => ?_
  by_cases hk : s.offering.fnftId = k
  · rw [if_pos hk] at hab ⊢
    obtain ⟨t, -, rfl⟩ := hab
    obtain rfl := Option.some.inj (s.fnft_found.symm.trans (hk ▸ ha))
    exact (of_fnftRest s.fnft_drawn).1
  · rw [if_neg hk] at hab ⊢
    rw [hab]

/-- **A deposit adds to what its buyer bought** of its offering, and to
nothing else. -/
theorem whitelist_settle :
    (∃ w, l'.whitelist.get? p.whitelistKey = some w ∧
      (bought l.whitelist p.whitelistKey (·.purchasedAmount)).add? p.amount =
        some w.purchasedAmount ∧
      (bought l.whitelist p.whitelistKey (·.depositedValue)).add? p.value =
        some w.depositedValue) ∧
      ∀ k, k ≠ p.whitelistKey → l'.whitelist.get? k = l.whitelist.get? k := by
  obtain ⟨s, rfl, -⟩ := of_settle h
  obtain ⟨hpurchased, hdeposited⟩ := of_totals s.totals
  -- Without a record so far, the totals are the amounts of the deposit.
  have hfirst (hnone : l.whitelist.get? p.whitelistKey = none) :
      s.purchased = p.amount ∧ s.deposited = p.value := by
    simp only [bought, hnone] at hpurchased hdeposited
    exact ⟨(Option.some.inj hpurchased).symm, (Option.some.inj hdeposited).symm⟩
  obtain ⟨⟨w, hw, hwp, hwd⟩, hothers⟩ := get?_record hfirst s.recorded
  exact ⟨⟨w, hw, hwp ▸ hpurchased, hwd ▸ hdeposited⟩, hothers⟩

end FundDeposit

end ChainLedger
