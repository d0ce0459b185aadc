import ChainLedger.Proofs.Decimal.Rounding
import ChainLedger.Proofs.Ledger.Account

/-!
# What a closing does to every entry

Closing some accounts is described entry by entry (`Shuts`): the open ones of
these accounts are withdrawn and are otherwise as they were, and all others
are untouched. Closings compose, also when they name an account twice, and
what they do to the balances follows (`Shuts.closes`).

What they held is summed up account after account, an account that is named
twice counting once (`heldInAll`). An account without an open entry adds a
zero, and a zero may change the form of another one, so sums are compared up
to that (`Decimal.Alike`). With at most one open entry of an account, the sum
is that of the open balances (`SingleOpen.sum_of_heldInAll`).
-/

namespace ChainLedger

/-! ## Decimals up to the form of a zero -/

namespace Decimal

variable {a a' b c : Decimal}

/-- **One decimal, or two zeros** of any form. -/
def Alike (a b : Decimal) : Prop :=
  a = b ∨ (a.isZero = true ∧ b.isZero = true)

theorem Alike.refl (a : Decimal) : Alike a a := .inl rfl

theorem Alike.trans (h : Alike a b) (h' : Alike b c) : Alike a c := by
  rcases h with rfl | ⟨ha, hb⟩
  · exact h'
  · rcases h' with rfl | ⟨-, hc⟩
    · exact .inr ⟨ha, hb⟩
    · exact .inr ⟨ha, hc⟩

/-- Decimals that are alike are the same by value. -/
theorem Alike.toRat_eq (h : Alike a b) : a.toRat = b.toRat := by
  have hzero {d : Decimal} (hd : d.isZero = true) : d.toRat = 0 := by
    have hcoeff : d.coeff = 0 := (coeff_eq_zero_iff d).mpr (by simpa [isZero] using hd)
    rw [toRat, hcoeff, Int.cast_zero, zero_div]
  rcases h with rfl | ⟨ha, hb⟩
  · rfl
  · rw [hzero ha, hzero hb]

/-- What is alike before an addition is alike after it. -/
theorem Alike.add? (h : Alike a a') (hc : a.add? b = some c) :
    ∃ c', a'.add? b = some c' ∧ Alike c c' := by
  rcases h with rfl | ⟨ha, ha'⟩
  · exact ⟨c, hc, .refl c⟩
  · rw [Decimal.add?, if_pos ha] at hc
    rw [Decimal.add?, if_pos ha']
    exact ⟨b, rfl, .inl (Option.some.inj hc).symm⟩

/-- A zero that is added changes the form of a zero at most. -/
theorem alike_of_add?_zero (h : a.add? zero = some c) : Alike c a := by
  unfold add? at h
  split at h
  · next ha => cases h; exact .inr ⟨rfl, ha⟩
  · rw [if_pos (show zero.isZero = true from rfl)] at h
    exact .inl (Option.some.inj h).symm

/-- Sums whose steps are alike are alike. -/
theorem Alike.foldlM {α : Type} {f g : Decimal → α → Option Decimal} {xs : List α}
    (hstep : ∀ x t t' z, Alike t t' → f t x = some z → ∃ z', g t' x = some z' ∧ Alike z z')
    (h : Alike a a') (hc : xs.foldlM f a = some c) :
    ∃ c', xs.foldlM g a' = some c' ∧ Alike c c' := by
  induction xs generalizing a a' with
  | nil => exact ⟨a', rfl, Option.some.inj hc ▸ h⟩
  | cons x xs ih =>
    rw [List.foldlM_cons, Option.bind_eq_bind, Option.bind_eq_some_iff] at hc
    obtain ⟨z, hz, hc⟩ := hc
    obtain ⟨z', hz', hzz'⟩ := hstep x a a' z h hz
    rw [List.foldlM_cons, hz']
    exact ih hzz' hc

end Decimal

/-- Of elements that are kept, each is named once, where it first was. -/
theorem eraseDups_filter {α : Type} [DecidableEq α] (p : α → Bool) (as : List α) :
    (as.filter p).eraseDups = as.eraseDups.filter p := by
  match as with
  | [] => rfl
  | a :: as =>
    have hrest := eraseDups_filter p (as.filter fun b => !b == a)
    rw [List.filter_filter] at hrest
    rw [List.eraseDups_cons, List.filter_cons, List.filter_cons, ← hrest]
    by_cases ha : p a
    · rw [if_pos ha, if_pos ha, List.eraseDups_cons, List.filter_filter]
      simp only [Bool.and_comm]
    · -- What is kept of the rest is not the element that is dropped.
      rw [if_neg ha, if_neg ha]
      congr 1
      refine List.filter_congr fun b _ => ?_
      by_cases hb : b = a
      · simp [hb, ha]
      · simp [hb]
termination_by as.length
decreasing_by
  have := List.length_filter_le (fun b => !b == a) as
  simp only [List.length_cons]
  omega

namespace Collection

variable {α : Type} [Document α] {c c' : Collection α} {now : Readings} {f : α → α} {p q : α → Bool}

/-- **What fits after an update of many**, if nothing that was updated fits:
what fitted before and was not updated. -/
theorem filter_updateMany (h : c.updateMany now p f = .ok c')
    (hq : ∀ a t, p a = true → q (Document.stamp t (f a)) = false) :
    c'.filter q = c.filter fun a => q a && !p a := by
  have hlist : ∀ {es es' : List (String × α)},
      changeAll now (fun e => p e.2) f es = .ok es' →
      (es'.map (·.2)).filter q = (es.map (·.2)).filter fun a => q a && !p a := by
    intro es
    induction es with
    | nil => intro es' h; cases h; rfl
    | cons e es ih =>
      intro es' h
      obtain ⟨b, hb, h⟩ := bind_eq_ok.mp h
      obtain ⟨rest, hrest, h⟩ := bind_eq_ok.mp h
      rw [← pure_eq_ok.mp h]
      simp only [List.map_cons, List.filter_cons, ih hrest]
      unfold changeIf at hb
      split at hb
      · next hp =>
        obtain ⟨t, -, rfl⟩ := of_touch hb
        simp [hq e.2 t hp, hp]
      · next hp =>
        cases hb
        simp [hp]
  unfold updateMany change at h
  split at h
  · next hes => cases h; exact hlist hes
  · cases h

end Collection

namespace Ledgers

variable {l l' l'' : Ledgers} {now : Readings} {a : Account} {accounts : List Account}
  {beneficiary offering : String} {currency : Address} {total : Decimal}

/-! ## Entry by entry -/

/-- **Some accounts were closed**: their open entries were withdrawn, and
nothing else of the revenue changed. -/
def Shuts (accounts : List Account) (l l' : Ledgers) : Prop :=
  ∀ k, Option.Rel (fun e e' : RevenueEntry =>
    if e.isWithdrawn = false ∧ e.account ∈ accounts then
      ∃ t, e.updatedAt < t ∧ e' = { e with isWithdrawn := true, updatedAt := t }
    else e' = e) (l.revenue.get? k) (l'.revenue.get? k)

theorem Shuts.nil : Shuts [] l l := by
  intro k
  cases l.revenue.get? k with
  | none => exact .none
  | some e => exact .some (by simp)

/-- Closings compose; what the first one withdrew, the others do not touch. -/
theorem Shuts.cons (h : Shuts [a] l l') (h' : Shuts accounts l' l'') :
    Shuts (a :: accounts) l l'' := by
  intro k
  refine (h k).comp (h' k) fun e e₁ e₂ h₁ h₂ => ?_
  by_cases hfirst : e.isWithdrawn = false ∧ e.account = a
  · rw [if_pos ⟨hfirst.1, List.mem_singleton.mpr hfirst.2⟩] at h₁
    obtain ⟨t, ht, rfl⟩ := h₁
    rw [if_neg (fun hopen => by simp at hopen)] at h₂
    rw [if_pos ⟨hfirst.1, List.mem_cons.mpr (.inl hfirst.2)⟩]
    exact ⟨t, ht, h₂⟩
  · rw [if_neg fun hc => hfirst ⟨hc.1, List.mem_singleton.mp hc.2⟩] at h₁
    rw [h₁] at h₂
    have hiff : (e.isWithdrawn = false ∧ e.account ∈ a :: accounts) ↔
        (e.isWithdrawn = false ∧ e.account ∈ accounts) := by
      rw [List.mem_cons]
      exact ⟨fun ⟨ho, ha⟩ => ⟨ho, ha.resolve_left fun ha => hfirst ⟨ho, ha⟩⟩,
        fun ⟨ho, ha⟩ => ⟨ho, .inr ha⟩⟩
    simp only [hiff]
    exact h₂

/-- An entry that is open after a closing was not closed, and is as it was. -/
theorem Shuts.of_open {k : String} {e : RevenueEntry} (h : Shuts accounts l l')
    (hk : l'.revenue.get? k = some e) (hopen : e.isWithdrawn = false) :
    l.revenue.get? k = some e ∧ e.account ∉ accounts := by
  obtain ⟨e₀, he₀, hwritten⟩ := (hk ▸ h k).to_some
  split at hwritten
  · obtain ⟨t, -, rfl⟩ := hwritten
    cases hopen
  · next hkept =>
    subst hwritten
    exact ⟨he₀, fun ha => hkept ⟨hopen, ha⟩⟩

/-- An entry of another account is not closed. -/
theorem Shuts.get?_of_notMem {k : String} {e : RevenueEntry} (h : Shuts accounts l l')
    (hk : l.revenue.get? k = some e) (ha : e.account ∉ accounts) :
    l'.revenue.get? k = some e := by
  obtain ⟨e', he', hwritten⟩ := (hk ▸ h k).of_some
  rw [if_neg fun hdue => ha hdue.2] at hwritten
  rw [he', hwritten]

/-- **With at most one open entry of an account**, closing entries closes the
accounts: they have no open balance any more, and the others keep theirs. -/
theorem Shuts.closes (hs : l.SingleOpen) (h : Shuts accounts l l') : Closes accounts l l' := by
  have hsingle : l'.SingleOpen := by
    intro k k' e₁ e₂ h₁ h₂ hopen₁ hopen₂ hacc
    exact hs k k' e₁ e₂ (h.of_open h₁ hopen₁).1 (h.of_open h₂ hopen₂).1 hopen₁ hopen₂ hacc
  refine ⟨hsingle, fun a => ?_, fun k e hk hclosed => ?_⟩
  · ext b
    rw [hsingle.openBalance?_eq_some_iff]
    by_cases ha : a ∈ accounts
    · rw [if_pos ha]
      constructor
      · rintro ⟨k, e, hk, hopen, rfl, -⟩
        exact absurd ha (h.of_open hk hopen).2
      · nofun
    · rw [if_neg ha, hs.openBalance?_eq_some_iff]
      constructor
      · rintro ⟨k, e, hk, hopen, rfl, hb⟩
        exact ⟨k, e, (h.of_open hk hopen).1, hopen, rfl, hb⟩
      · rintro ⟨k, e, hk, hopen, rfl, hb⟩
        exact ⟨k, e, h.get?_of_notMem hk ha, hopen, rfl, hb⟩
  · obtain ⟨e₀, he₀, hwritten⟩ := (hk ▸ h k).to_some
    split at hwritten
    · next hdue =>
      obtain ⟨t, -, rfl⟩ := hwritten
      exact .inr ⟨hdue.2, hs.openBalance?_eq_some_iff.mpr ⟨k, e₀, he₀, hdue.1, rfl, rfl⟩⟩
    · rw [hwritten]
      exact .inl he₀

/-- What is due of an account is what is open of it. -/
theorem isDue_eq : isDue beneficiary offering (some currency) =
    fun e => e.isOpenFor ⟨beneficiary, offering, currency⟩ := by
  funext e
  rw [Bool.eq_iff_iff, isDue_iff, RevenueEntry.isOpenFor_iff]

theorem shuts_markWithdrawn
    (h : l.markWithdrawn now beneficiary offering (some currency) = .ok (total, l')) :
    Shuts [⟨beneficiary, offering, currency⟩] l l' := by
  obtain ⟨revenue, -, hrevenue, rfl⟩ := of_markWithdrawn h
  intro k
  refine (Collection.rel_updateMany hrevenue k).imp fun e e' _ he => ?_
  simp only [isDue_iff, List.mem_singleton] at he ⊢
  exact he

/-! ## What they held -/

/-- The open entries of an account. -/
def openEntries (l : Ledgers) (a : Account) : List RevenueEntry :=
  l.revenue.filter (·.isOpenFor a)

/-- What the open entries of an account hold. -/
def heldIn (l : Ledgers) (a : Account) : Option Decimal :=
  sumBalances (l.openEntries a)

/-- **What the open entries of some accounts hold**, account after account;
one that is named twice counts once. -/
def heldInAll (l : Ledgers) (accounts : List Account) : Option Decimal :=
  accounts.eraseDups.foldlM (fun sum a => (l.heldIn a).bind sum.add?) .zero

/-- A closing answers what its account held. -/
theorem heldIn_of_markWithdrawn
    (h : l.markWithdrawn now beneficiary offering (some currency) = .ok (total, l')) :
    l.heldIn ⟨beneficiary, offering, currency⟩ = some total := by
  obtain ⟨-, hsum, -⟩ := of_markWithdrawn h
  rwa [isDue_eq] at hsum

/-- After a closing its account holds nothing, and the others what they held. -/
theorem heldIn_markWithdrawn
    (h : l.markWithdrawn now beneficiary offering (some currency) = .ok (total, l')) :
    l'.heldIn a = if a = ⟨beneficiary, offering, currency⟩ then some .zero else l.heldIn a := by
  obtain ⟨revenue, -, hrevenue, rfl⟩ := of_markWithdrawn h
  rw [isDue_eq] at hrevenue
  have hfilter := Collection.filter_updateMany (q := (·.isOpenFor a)) hrevenue fun e t _ => by
    simp [RevenueEntry.isOpenFor, Document.stamp]
  unfold heldIn openEntries
  rw [hfilter]
  split
  · next ha =>
    subst ha
    have hnone : (l.revenue.filter fun e =>
        e.isOpenFor ⟨beneficiary, offering, currency⟩ &&
          !e.isOpenFor ⟨beneficiary, offering, currency⟩) = [] :=
      List.filter_eq_nil_iff.mpr fun e _ => by simp
    rw [hnone]
    rfl
  · next ha =>
    congr 1
    refine List.filter_congr fun e _ => ?_
    cases hopen : e.isOpenFor a with
    | false => rfl
    | true =>
      have hother : e.isOpenFor ⟨beneficiary, offering, currency⟩ = false := by
        rw [Bool.eq_false_iff, ne_eq, RevenueEntry.isOpenFor_iff]
        exact fun h => ha ((RevenueEntry.isOpenFor_iff.mp hopen).2.symm.trans h.2)
      rw [hother]
      rfl

/-! ## At most one open entry -/

/-- With at most one open entry of an account, the one that is found is all
there is. -/
theorem SingleOpen.openEntries_eq (h : l.SingleOpen) (a : Account) :
    l.openEntries a = (l.openEntry? a).toList := by
  have hfind : l.openEntry? a = (l.openEntries a).head? := by
    unfold openEntry? openEntries Collection.find? Collection.filter
    rw [List.head?_filter]
  rw [hfind]
  have hsorted : (l.revenue.entries.filter fun e => e.2.isOpenFor a).Pairwise (·.1 < ·.1) :=
    (List.pairwise_map.mp l.revenue.sorted).filter _
  have hmap : l.openEntries a = (l.revenue.entries.filter fun e => e.2.isOpenFor a).map (·.2) := by
    rw [openEntries, Collection.filter, Collection.toList, List.filter_map]
    rfl
  rw [hmap]
  have hopen : ∀ e ∈ l.revenue.entries.filter fun e => e.2.isOpenFor a,
      l.revenue.get? e.1 = some e.2 ∧ e.2.isWithdrawn = false ∧ e.2.account = a := by
    intro e he
    obtain ⟨hmem, hfits⟩ := List.mem_filter.mp he
    exact ⟨Collection.get?_eq_some_iff.mpr hmem, RevenueEntry.isOpenFor_iff.mp hfits⟩
  generalize l.revenue.entries.filter (fun e => e.2.isOpenFor a) = es at hsorted hopen ⊢
  cases es with
  | nil => rfl
  | cons e es =>
    cases es with
    | nil => rfl
    | cons e' es =>
      -- Two open entries would be under two keys.
      obtain ⟨hk, ho, ha⟩ := hopen e (.head _)
      obtain ⟨hk', ho', ha'⟩ := hopen e' (.tail _ (.head _))
      have hlt := (List.pairwise_cons.mp hsorted).1 e' (.head _)
      have heq := h _ _ _ _ hk hk' ho ho' (ha.trans ha'.symm)
      exact absurd heq (String.ne_of_lt hlt)

/-- **With at most one open entry of an account** what the accounts hold is
the sum of their open balances. -/
theorem SingleOpen.sum_of_heldInAll (h : l.SingleOpen) (ht : l.heldInAll accounts = some total) :
    ∃ sum, (accounts.eraseDups.filterMap l.openBalance?).foldlM Decimal.add? .zero = some sum ∧
      Decimal.Alike total sum := by
  rw [List.foldlM_filterMap]
  refine Decimal.Alike.foldlM (fun a t t' z ht hz => ?_) (.refl _) ht
  rw [heldIn, h.openEntries_eq] at hz
  unfold openBalance?
  cases hentry : l.openEntry? a with
  | none =>
    rw [hentry] at hz
    exact ⟨t', rfl, (Decimal.alike_of_add?_zero hz).trans ht⟩
  | some e =>
    rw [hentry] at hz
    exact ht.add? hz

end Ledgers

end ChainLedger
