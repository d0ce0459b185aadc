import ChainLedger.Proofs.Ledger.Revenue

/-!
# Balances of accounts

An account has an open balance while an entry of it is open. Amounts accrue
to it in order (`Accrues`); the first of them opens the balance. `Credits`
says of ledgers what accrued to every account in between, and `Closes` which
accounts were closed; both keep at most one entry of an account open, and
credits compose.
-/

namespace ChainLedger

/-! ## Amounts that accrue -/

/-- **Amounts accrue to a balance**, in order. There is a balance after them
if there was one before or if there are any. -/
def Accrues (before : Option Decimal) (amounts : List Decimal) (after : Option Decimal) : Prop :=
  (after.isSome = true ↔ before.isSome = true ∨ amounts ≠ []) ∧
    ∀ b, after = some b → amounts.foldlM Decimal.add? (before.getD .zero) = some b

namespace Accrues

variable {x y z : Option Decimal} {amounts amounts' : List Decimal} {b : Decimal}

theorem refl (x : Option Decimal) : Accrues x [] x := by
  refine ⟨by simp, fun b hb => ?_⟩
  rw [hb]
  rfl

theorem trans (h : Accrues x amounts y) (h' : Accrues y amounts' z) :
    Accrues x (amounts ++ amounts') z := by
  refine ⟨?_, fun b hb => ?_⟩
  · rw [h'.1, h.1]
    simp only [ne_eq, List.append_eq_nil_iff, not_and_or, or_assoc]
  · have hlast := h'.2 b hb
    cases y with
    | none =>
      -- Nothing accrued so far, or there would be a balance.
      have hnone : ¬ (x.isSome = true ∨ amounts ≠ []) := h.1.not.mp (by simp)
      rw [not_or, not_not] at hnone
      rw [hnone.2, List.nil_append, Option.not_isSome_iff_eq_none.mp hnone.1]
      exact hlast
    | some a =>
      rw [List.foldlM_append, h.2 a rfl]
      exact hlast

/-- One amount. -/
theorem single (h : (x.getD .zero).add? b = some a) : Accrues x [b] (some a) := by
  refine ⟨by simp, fun c hc => ?_⟩
  cases hc
  simpa using h

end Accrues

namespace Ledgers

variable {l l' l'' : Ledgers} {clock : Clock} {a : Account} {e : RevenueEntry}
  {beneficiary offering id : String} {amount : Decimal} {quote : Quote}

/-- The open balance of an account. -/
def openBalance? (l : Ledgers) (a : Account) : Option Decimal :=
  (l.openEntry? a).map (·.balance)

/-- The open balance is that of the open entry. -/
theorem SingleOpen.openBalance?_eq_some_iff (h : l.SingleOpen) {b : Decimal} :
    l.openBalance? a = some b ↔
      ∃ k e, l.revenue.get? k = some e ∧ e.isWithdrawn = false ∧ e.account = a ∧ e.balance = b := by
  unfold openBalance?
  rw [Option.map_eq_some_iff]
  constructor
  · rintro ⟨e, he, rfl⟩
    obtain ⟨⟨k, hk⟩, hopen, ha⟩ := of_openEntry?_eq_some he
    exact ⟨k, e, hk, hopen, ha, rfl⟩
  · rintro ⟨k, e, hk, hopen, ha, rfl⟩
    exact ⟨e, h.openEntry?_eq hk hopen ha, rfl⟩

/-! ## Credits -/

/-- **What accrued to every account** in between; nothing was closed. -/
structure Credits (amounts : Account → List Decimal) (l l' : Ledgers) : Prop where
  single : l'.SingleOpen
  accrues : ∀ a, Accrues (l.openBalance? a) (amounts a) (l'.openBalance? a)
  closed : ∀ k e, l'.revenue.get? k = some e → e.isWithdrawn = true → l.revenue.get? k = some e

/-- Nothing accrues where the revenue is the same. -/
theorem Credits.of_revenue_eq (h : l.SingleOpen) (hr : l'.revenue = l.revenue) :
    Credits (fun _ => []) l l' where
  single := by
    unfold SingleOpen
    rw [hr]
    exact h
  accrues a := by
    unfold openBalance? openEntry?
    rw [hr]
    exact .refl _
  closed := by
    rw [hr]
    exact fun _ _ hk _ => hk

theorem Credits.trans {amounts amounts' : Account → List Decimal} (h : Credits amounts l l')
    (h' : Credits amounts' l' l'') : Credits (fun a => amounts a ++ amounts' a) l l'' where
  single := h'.single
  accrues a := (h.accrues a).trans (h'.accrues a)
  closed k e hk hclosed := h.closed k e (h'.closed k e hk hclosed) hclosed

/-- **A write of one open entry** credits its account, if it was the only one. -/
theorem Credits.of_get? (hl : l.SingleOpen) (key : String) {amount : Decimal}
    (hget : ∀ k, l'.revenue.get? k = if k = key then some e else l.revenue.get? k)
    (hopen : e.isWithdrawn = false) (ha : e.account = a)
    (honly : ∀ k e', l.revenue.get? k = some e' → e'.isWithdrawn = false → e'.account = a → k = key)
    (hsame : ∀ e', l.revenue.get? key = some e' → e'.isWithdrawn = false ∧ e'.account = a)
    (hadd : ((l.openBalance? a).getD .zero).add? amount = some e.balance) :
    Credits (fun a' => if a' = a then [amount] else []) l l' := by
  have hkey : l'.revenue.get? key = some e := by rw [hget, if_pos rfl]
  have hothers {k : String} (hk : k ≠ key) : l'.revenue.get? k = l.revenue.get? k := by
    rw [hget, if_neg hk]
  have hsingle : l'.SingleOpen := by
    intro k k' e₁ e₂ h₁ h₂ hopen₁ hopen₂ hacc
    by_cases hk : k = key
    · by_cases hk' : k' = key
      · rw [hk, hk']
      · rw [hothers hk'] at h₂
        rw [hk, hkey] at h₁
        cases h₁
        exact absurd (honly k' e₂ h₂ hopen₂ (hacc ▸ ha)) hk'
    · by_cases hk' : k' = key
      · rw [hothers hk] at h₁
        rw [hk', hkey] at h₂
        cases h₂
        exact absurd (honly k e₁ h₁ hopen₁ (hacc.trans ha)) hk
      · rw [hothers hk] at h₁
        rw [hothers hk'] at h₂
        exact hl k k' e₁ e₂ h₁ h₂ hopen₁ hopen₂ hacc
  -- The entry that is written is open, so the other accounts keep their open entries.
  refine ⟨hsingle, fun a' => ?_, fun k e' hk hclosed => ?_⟩
  · by_cases haa : a' = a
    · have hbalance : l'.openBalance? a' = some e.balance :=
        hsingle.openBalance?_eq_some_iff.mpr ⟨key, e, hkey, hopen, ha.trans haa.symm, rfl⟩
      rw [if_pos haa, hbalance]
      exact .single (haa ▸ hadd)
    · have hbalance : l'.openBalance? a' = l.openBalance? a' := by
        ext b
        rw [hsingle.openBalance?_eq_some_iff, hl.openBalance?_eq_some_iff]
        constructor
        · rintro ⟨k, e', hk, hopen', ha', hb⟩
          have hne : k ≠ key := by
            rintro rfl
            rw [hkey] at hk
            cases hk
            exact haa (ha'.symm.trans ha)
          exact ⟨k, e', hothers hne ▸ hk, hopen', ha', hb⟩
        · rintro ⟨k, e', hk, hopen', ha', hb⟩
          have hne : k ≠ key := by
            rintro rfl
            exact haa (ha'.symm.trans (hsame e' hk).2)
          exact ⟨k, e', (hothers hne).trans hk, hopen', ha', hb⟩
      rw [if_neg haa, hbalance]
      exact .refl _
  · by_cases hkk : k = key
    · rw [hkk, hkey] at hk
      cases hk
      rw [hopen] at hclosed
      cases hclosed
    · rwa [hothers hkk] at hk

/-- **A credit accrues to its account** and to no other. -/
theorem credits_credit (hl : l.Keyed) (hs : l.SingleOpen)
    (h : l.credit clock beneficiary offering amount quote = .ok (id, l')) :
    Credits (fun a => if a = ⟨beneficiary, offering, quote.currency⟩ then [amount] else [])
      l l' := by
  rcases of_credit h with ⟨e, balance, revenue, hentry, hadd, hrevenue, -, rfl⟩ |
    ⟨entry, revenue, hnone, hentry, hrevenue, rfl⟩
  · obtain ⟨⟨k, hk⟩, hopen, ha⟩ := of_openEntry?_eq_some hentry
    obtain rfl : e.id = k := hl.revenue k e hk
    obtain ⟨t, ht⟩ := Collection.get?_update_self hrevenue hk
    refine .of_get? hs e.id (e := Document.stamp t { e with balance := balance })
      ?_ hopen ha ?_ ?_ ?_
    · intro k
      by_cases hkey : k = e.id
      · rw [if_pos hkey, hkey]
        exact ht
      · rw [if_neg hkey]
        exact Collection.get?_update_of_ne hrevenue hkey
    · exact fun k e' hk' hopen' ha' => hs k e.id e' e hk' hk hopen' hopen (ha'.trans ha.symm)
    · intro e' he'
      obtain rfl := Option.some.inj (hk.symm.trans he')
      exact ⟨hopen, ha⟩
    · rw [openBalance?, hentry]
      exact hadd
  · obtain ⟨hfree, t, -, hget⟩ := Collection.get?_insert hrevenue
    refine .of_get? hs _ hget (by rw [hentry]; rfl) (by rw [hentry]; rfl) ?_ ?_ ?_
    · intro k e' hk' hopen' ha'
      rw [openEntry?_eq_none_iff.mp hnone k e' hk' ha'] at hopen'
      cases hopen'
    · intro e' he'
      rw [hfree] at he'
      cases he'
    · rw [openBalance?, hnone, hentry]
      rfl

/-! ## Closings -/

/-- **Some accounts were closed** in between, and nothing accrued. -/
structure Closes (accounts : List Account) (l l' : Ledgers) : Prop where
  single : l'.SingleOpen
  balance : ∀ a, l'.openBalance? a = if a ∈ accounts then none else l.openBalance? a
  closed : ∀ k e, l'.revenue.get? k = some e → e.isWithdrawn = true →
    l.revenue.get? k = some e ∨
      (e.account ∈ accounts ∧ l.openBalance? e.account = some e.balance)

end Ledgers

end ChainLedger
