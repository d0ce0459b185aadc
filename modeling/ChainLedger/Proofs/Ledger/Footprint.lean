import ChainLedger.Proofs.Ledger.Closing

/-!
# Footprints

A `Footprint` names the documents that may be written: keys in each
collection, and for the revenue, whose entries have no keys that an event
would know, accounts. `Ledgers.Framed` says that nothing else was written:
what is under other keys, and the entries of other accounts, are as they were
with their watermarks, and no document is gone.

An account that is credited has at most one entry written, the open one
(`Ledgers.CreditsAt`), also if it is credited twice in a row
(`CreditsAt.books`).
-/

namespace ChainLedger

namespace Collection

variable {α : Type} {c c' : Collection α} {k key : String} {ks : List String} {a b : α}
  {p : α → Bool}

/-- **What is found first** is what fits under the least key. -/
theorem find?_eq_some_iff :
    c.find? p = some a ↔
      ∃ k, c.get? k = some a ∧ p a = true ∧
        ∀ k' b, c.get? k' = some b → p b = true → ¬ k' < k := by
  have hleast : ∀ {a}, c.find? p = some a → ∃ k, c.get? k = some a ∧ p a = true ∧
      ∀ k' b, c.get? k' = some b → p b = true → ¬ k' < k := by
    intro a h
    rw [find?, toList, List.find?_map, Option.map_eq_some_iff] at h
    obtain ⟨e, he, rfl⟩ := h
    obtain ⟨hp, as, bs, hes, hbefore⟩ := List.find?_eq_some_iff_append.mp he
    refine ⟨e.1, get?_eq_some_iff.mpr (List.mem_of_find?_eq_some he), hp, fun k' b hb hpb => ?_⟩
    have hsorted := List.pairwise_map.mp c.sorted
    rw [hes, List.pairwise_append, List.pairwise_cons] at hsorted
    rw [get?_eq_some_iff, hes, List.mem_append, List.mem_cons] at hb
    rcases hb with hb | rfl | hb
    · have hnot := hbefore _ hb
      simp [hpb] at hnot
    · exact String.lt_irrefl _
    · exact String.lt_asymm (hsorted.2.1.1 _ hb)
  refine ⟨hleast, ?_⟩
  rintro ⟨k, ha, hp, hmin⟩
  have hsome : (c.find? p).isSome := by
    rw [find?, List.find?_isSome]
    exact ⟨a, mem_toList.mpr ⟨k, ha⟩, hp⟩
  obtain ⟨b, hb⟩ := Option.isSome_iff_exists.mp hsome
  obtain ⟨k', hb', hpb, hmin'⟩ := hleast hb
  obtain rfl : k = k' := String.le_antisymm (String.not_lt.mp (hmin k' b hb' hpb))
    (String.not_lt.mp (hmin' k a ha hp))
  rw [hb, ← hb', ha]

/-! ## Writing under some keys -/

/-- **Nothing is written but under some keys**, and no document is gone. -/
structure Within (ks : List String) (c c' : Collection α) : Prop where
  others : ∀ k, k ∉ ks → c'.get? k = c.get? k
  still : ∀ k, c.contains k = true → c'.contains k = true

/-- **Nothing is changed but the documents under some keys**, and none came
in. -/
structure Amends (ks : List String) (c c' : Collection α) : Prop extends Within ks c c' where
  none : ∀ k, c.get? k = none → c'.get? k = none

/-- **Documents came in** under some keys that were free, and nothing else
happened. -/
structure Enters (ks : List String) (c c' : Collection α) : Prop extends Within ks c c' where
  fresh : ∀ k ∈ ks, c.get? k = none
  there : ∀ k ∈ ks, c'.contains k = true

theorem Within.refl : Within ks c c := ⟨fun _ _ => rfl, fun _ h => h⟩

theorem Amends.refl : Amends ks c c := ⟨.refl, fun _ h => h⟩

theorem Enters.refl : Enters [] c c := ⟨.refl, nofun, nofun⟩

/-- All documents stay that were there. -/
theorem contains_of_revises {R : α → α → Prop} (h : Revises R c c') (hk : c.contains k = true) :
    c'.contains k = true := by
  obtain ⟨a, ha⟩ := contains_iff.mp hk
  obtain ⟨b, hb, -⟩ := h.still k a ha
  exact contains_iff.mpr ⟨b, hb⟩

variable [Document α] {now : Readings} {f : α → α}

theorem amends_update (h : c.update now key f = .ok c') : Amends [key] c c' := by
  have hrevises : Revises (fun _ _ => True) c c' :=
    revises_update h (fun _ => trivial) fun _ _ _ _ => trivial
  refine ⟨⟨fun k hk => ?_, fun k => contains_of_revises hrevises⟩, hrevises.none⟩
  exact get?_update_of_ne h fun hkey => hk (List.mem_singleton.mpr hkey)

theorem enters_insert (h : c.insert now a = .ok c') : Enters [Document.key a] c c' := by
  obtain ⟨hfree, t, -, hget⟩ := get?_insert h
  have hextends : Extends (fun _ _ => True) c c' := extends_insert h fun _ => trivial
  refine ⟨⟨fun k hk => ?_, fun k hk => ?_⟩, fun k hk => ?_, fun k hk => ?_⟩
  · rw [hget, if_neg fun hkey => hk (List.mem_singleton.mpr hkey)]
  · obtain ⟨b, hb⟩ := contains_iff.mp hk
    obtain ⟨d, hd, -⟩ := hextends k b hb
    exact contains_iff.mpr ⟨d, hd⟩
  · rw [List.mem_singleton.mp hk]
    exact hfree
  · exact contains_iff.mpr ⟨_, by rw [hget, if_pos (List.mem_singleton.mp hk)]⟩

end Collection

/-! ## Entries of accounts -/

/-- **No entries are written but those of some accounts.** Of an account that
is credited, and not closed, it is one at most; closings open none. -/
structure Books (credited closed : List Account) (c c' : Collection RevenueEntry) : Prop where
  still : ∀ k, c.contains k = true → c'.contains k = true
  written : ∀ k, c'.get? k ≠ c.get? k → ∃ e, c'.get? k = some e ∧
    (e.account ∈ credited ∨ e.account ∈ closed ∧ c.contains k = true) ∧
    ∀ e₀, c.get? k = some e₀ → e₀.account = e.account
  once : ∀ k k' e e', c'.get? k ≠ c.get? k → c'.get? k' ≠ c.get? k' →
    c'.get? k = some e → c'.get? k' = some e' → e.account = e'.account →
    e.account ∉ closed → k = k'

theorem Books.refl {credited closed : List Account} {c : Collection RevenueEntry} :
    Books credited closed c c :=
  ⟨fun _ h => h, fun _ h => absurd rfl h, fun _ _ _ _ h => absurd rfl h⟩

namespace Ledgers

variable {l l₁ l₂ l' : Ledgers} {clock : Clock} {a b : Account} {accounts : List Account}
  {beneficiary offering id k : String} {amount : Decimal} {quote : Quote} {e : RevenueEntry}

/-- The open entry that is found is the one under the least key. -/
theorem openEntry?_eq_some_iff :
    l.openEntry? a = some e ↔
      ∃ k, l.revenue.get? k = some e ∧ e.isOpenFor a = true ∧
        ∀ k' e', l.revenue.get? k' = some e' → e'.isOpenFor a = true → ¬ k' < k :=
  Collection.find?_eq_some_iff

/-- **At most one entry of an account was written**: the one that was open, if
there was one, and that is open then. -/
structure CreditsAt (a : Account) (l l' : Ledgers) : Prop where
  still : ∀ k, l.revenue.contains k = true → l'.revenue.contains k = true
  written : ∀ k, l'.revenue.get? k ≠ l.revenue.get? k → ∃ e, l'.revenue.get? k = some e ∧
    l'.openEntry? a = some e ∧ (∀ e₀, l.revenue.get? k = some e₀ → e₀.account = a) ∧
    ∀ e₀, l.openEntry? a = some e₀ → l.revenue.get? k = some e₀

theorem CreditsAt.refl : CreditsAt a l l :=
  ⟨fun _ h => h, fun _ h => absurd rfl h⟩

/-- What was written is of the account. -/
theorem CreditsAt.account_eq (h : CreditsAt a l l')
    (hk : l'.revenue.get? k ≠ l.revenue.get? k) (he : l'.revenue.get? k = some e) :
    e.account = a ∧ l'.openEntry? a = some e := by
  obtain ⟨e', he', hopen, -⟩ := h.written k hk
  obtain rfl := Option.some.inj (he'.symm.trans he)
  exact ⟨(of_openEntry?_eq_some hopen).2.2, hopen⟩

/-- **A write of one entry** credits its account, if it is written over the open
entry wherever there is one. -/
theorem CreditsAt.of_get? (hl : l.Keyed) (key : String)
    (hget : ∀ k, l'.revenue.get? k = if k = key then some e else l.revenue.get? k)
    (hopen : e.isOpenFor a = true)
    (hwas : ∀ e₀, l.revenue.get? key = some e₀ → e₀.account = a)
    (hover : ∀ e₀, l.openEntry? a = some e₀ → l.revenue.get? key = some e₀) :
    CreditsAt a l l' := by
  have hkey : l'.revenue.get? key = some e := by rw [hget, if_pos rfl]
  have hother {k : String} (hk : k ≠ key) : l'.revenue.get? k = l.revenue.get? k := by
    rw [hget, if_neg hk]
  have hfound : l'.openEntry? a = some e := by
    refine openEntry?_eq_some_iff.mpr ⟨key, hkey, hopen, fun k' e' he' hopen' hlt => ?_⟩
    have hk' : k' ≠ key := String.ne_of_lt hlt
    rw [hother hk'] at he'
    -- The entry was open before, so one was found before, under a key no greater.
    cases hbefore : l.openEntry? a with
    | none =>
      obtain ⟨ho, ha⟩ := RevenueEntry.isOpenFor_iff.mp hopen'
      rw [openEntry?_eq_none_iff.mp hbefore k' e' he' ha] at ho
      cases ho
    | some e₀ =>
      obtain ⟨k₀, hk₀, -, hleast⟩ := openEntry?_eq_some_iff.mp hbefore
      have hid₀ : e₀.id = k₀ := hl.revenue k₀ e₀ hk₀
      have hid : e₀.id = key := hl.revenue key e₀ (hover e₀ hbefore)
      obtain rfl : k₀ = key := hid₀.symm.trans hid
      exact hleast k' e' he' hopen' hlt
  refine ⟨fun k hk => ?_, fun k hk => ?_⟩
  · by_cases hkk : k = key
    · exact Collection.contains_iff.mpr ⟨e, hkk ▸ hkey⟩
    · rwa [Collection.contains, hother hkk]
  · obtain rfl : k = key := by
      by_contra hne
      exact hk (hother hne)
    exact ⟨e, hkey, hfound, hwas, hover⟩

/-- **A credit writes at most one entry of its account.** -/
theorem creditsAt_credit (hl : l.Keyed)
    (h : l.credit clock beneficiary offering amount quote = .ok (id, l')) :
    CreditsAt ⟨beneficiary, offering, quote.currency⟩ l l' := by
  rcases of_credit h with ⟨e, balance, revenue, hopen, -, hrevenue, -, rfl⟩ |
    ⟨entry, revenue, hnone, hentry, hrevenue, rfl⟩
  · obtain ⟨⟨k, hk⟩, hwasOpen, haccount⟩ := of_openEntry?_eq_some hopen
    obtain rfl : e.id = k := hl.revenue k e hk
    obtain ⟨t, ht⟩ := Collection.get?_update_self hrevenue hk
    refine .of_get? hl e.id (e := Document.stamp t { e with balance := balance }) (fun k' => ?_)
      (RevenueEntry.isOpenFor_iff.mpr ⟨hwasOpen, haccount⟩) (fun e₀ he₀ => ?_) (fun e₀ he₀ => ?_)
    · by_cases hkey : k' = e.id
      · rw [if_pos hkey, hkey]
        exact ht
      · rw [if_neg hkey]
        exact Collection.get?_update_of_ne hrevenue hkey
    · obtain rfl := Option.some.inj (hk.symm.trans he₀)
      exact haccount
    · rwa [← Option.some.inj (hopen.symm.trans he₀)]
  · obtain ⟨hfree, t, -, hget⟩ := Collection.get?_insert hrevenue
    refine .of_get? hl (Document.key entry) hget ?_ (fun e₀ he₀ => ?_) (fun e₀ he₀ => ?_)
    · rw [hentry]
      exact RevenueEntry.isOpenFor_iff.mpr ⟨rfl, rfl⟩
    · rw [hfree] at he₀
      cases he₀
    · rw [hnone] at he₀
      cases he₀

/-- **Two credits in a row** write at most one entry of each account, and just
one if they are to the same. -/
theorem CreditsAt.books (hl₁ : l₁.Keyed) (hl₂ : l₂.Keyed) (h : CreditsAt a l l₁)
    (h' : CreditsAt b l₁ l₂) : Books [a, b] [] l.revenue l₂.revenue := by
  -- An entry that the second credit left is as the first one left it.
  have hfirst : ∀ {k e}, l₂.revenue.get? k ≠ l.revenue.get? k →
      l₂.revenue.get? k = l₁.revenue.get? k → l₂.revenue.get? k = some e →
      e.account = a ∧ l₁.openEntry? a = some e ∧ l₁.revenue.get? k = some e := by
    intro k e hk hsame he
    have hk₁ : l₁.revenue.get? k ≠ l.revenue.get? k := hsame ▸ hk
    have he₁ : l₁.revenue.get? k = some e := hsame ▸ he
    obtain ⟨ha, hopen⟩ := h.account_eq hk₁ he₁
    exact ⟨ha, hopen, he₁⟩
  -- One of the account that the first credit wrote is the open one, which the second one writes.
  have hboth : ∀ {k k' e e'}, l₂.revenue.get? k ≠ l₁.revenue.get? k →
      l₂.revenue.get? k = some e → e'.account = a → l₁.openEntry? a = some e' →
      l₁.revenue.get? k' = some e' → e.account = e'.account → k = k' := by
    intro k k' e e' hk he ha hopen he' hsame
    obtain ⟨-, -, -, -, hwas⟩ := h'.written k hk
    have hab : b = a := (h'.account_eq hk he).1.symm.trans (hsame.trans ha)
    have hke : l₁.revenue.get? k = some e' := hwas e' (hab ▸ hopen)
    have hid : e'.id = k := hl₁.revenue k e' hke
    have hid' : e'.id = k' := hl₁.revenue k' e' he'
    exact hid.symm.trans hid'
  refine ⟨fun k hk => h'.still k (h.still k hk), fun k hk => ?_, ?_⟩
  · by_cases hk₂ : l₂.revenue.get? k = l₁.revenue.get? k
    · have hk₁ : l₁.revenue.get? k ≠ l.revenue.get? k := hk₂ ▸ hk
      obtain ⟨e, he, hopen, hbefore, -⟩ := h.written k hk₁
      have ha := (of_openEntry?_eq_some hopen).2.2
      exact ⟨e, hk₂.trans he, .inl (ha ▸ List.mem_cons_self), fun e₀ he₀ =>
        (hbefore e₀ he₀).trans ha.symm⟩
    · obtain ⟨e, he, hopen, hbefore, -⟩ := h'.written k hk₂
      have hb := (of_openEntry?_eq_some hopen).2.2
      refine ⟨e, he, .inl (hb ▸ List.mem_cons_of_mem _ List.mem_cons_self), fun e₀ he₀ => ?_⟩
      by_cases hk₁ : l₁.revenue.get? k = l.revenue.get? k
      · exact (hbefore e₀ (hk₁.trans he₀)).trans hb.symm
      · obtain ⟨e₁, he₁, hopen₁, hbefore₁, -⟩ := h.written k hk₁
        have ha := (of_openEntry?_eq_some hopen₁).2.2
        calc e₀.account = a := hbefore₁ e₀ he₀
          _ = e₁.account := ha.symm
          _ = b := hbefore e₁ he₁
          _ = e.account := hb.symm
  · intro k k' e e' hk hk' he he' hsame _
    by_cases hk₂ : l₂.revenue.get? k = l₁.revenue.get? k
    · obtain ⟨ha, hopen, he₁⟩ := hfirst hk hk₂ he
      by_cases hk₂' : l₂.revenue.get? k' = l₁.revenue.get? k'
      · obtain ⟨-, hopen', he₁'⟩ := hfirst hk' hk₂' he'
        obtain rfl := Option.some.inj (hopen.symm.trans hopen')
        have hid : e.id = k := hl₁.revenue k e he₁
        have hid' : e.id = k' := hl₁.revenue k' e he₁'
        exact hid.symm.trans hid'
      · exact (hboth hk₂' he' ha hopen he₁ hsame.symm).symm
    · by_cases hk₂' : l₂.revenue.get? k' = l₁.revenue.get? k'
      · obtain ⟨ha', hopen', he₁'⟩ := hfirst hk' hk₂' he'
        exact hboth hk₂ he ha' hopen' he₁' hsame
      · have hopen := (h'.account_eq hk₂ he).2
        have hopen' := (h'.account_eq hk₂' he').2
        obtain rfl := Option.some.inj (hopen.symm.trans hopen')
        have hid : e.id = k := hl₂.revenue k e he
        have hid' : e.id = k' := hl₂.revenue k' e he'
        exact hid.symm.trans hid'

/-- A closing writes the entries of its accounts. -/
theorem Shuts.books (h : Shuts accounts l l') : Books [] accounts l.revenue l'.revenue := by
  have haccount : ∀ {k e}, l'.revenue.get? k ≠ l.revenue.get? k → l'.revenue.get? k = some e →
      ∃ e₀, l.revenue.get? k = some e₀ ∧ e₀.account = e.account ∧ e.account ∈ accounts := by
    intro k e hk he
    obtain ⟨e₀, he₀, hwritten⟩ := (he ▸ h k).to_some
    split at hwritten
    · next hdue =>
      obtain ⟨t, -, rfl⟩ := hwritten
      exact ⟨e₀, he₀, rfl, hdue.2⟩
    · rw [he, he₀, hwritten] at hk
      exact absurd rfl hk
  constructor
  · intro k hk
    obtain ⟨e, he⟩ := Collection.contains_iff.mp hk
    obtain ⟨e', he', -⟩ := (he ▸ h k).of_some
    exact Collection.contains_iff.mpr ⟨e', he'⟩
  · intro k hk
    cases he : l'.revenue.get? k with
    | none =>
      have hrel := h k
      rw [he] at hrel hk
      cases he₀ : l.revenue.get? k with
      | none => exact absurd he₀.symm hk
      | some e₀ =>
        rw [he₀] at hrel
        cases hrel
    | some e =>
      obtain ⟨e₀, he₀, hsame, hmem⟩ := haccount hk he
      refine ⟨e, rfl, .inr ⟨hmem, Collection.contains_iff.mpr ⟨e₀, he₀⟩⟩, fun e₁ he₁ => ?_⟩
      rw [← Option.some.inj (he₀.symm.trans he₁)]
      exact hsame
  · intro k k' e e' hk _ he _ _ hnot
    obtain ⟨-, -, -, hmem⟩ := haccount hk he
    exact absurd hmem hnot

end Ledgers

/-! ## Footprints -/

/-- **What may be written**: the documents under some keys, and the entries of
some accounts. -/
structure Footprint where
  assets : List String := []
  nfts : List String := []
  fnfts : List String := []
  offerings : List String := []
  purchases : List String := []
  whitelist : List String := []
  credited : List Account := []
  closed : List Account := []
  withdrawals : List String := []
  admins : List String := []
  pools : List String := []
  stakes : List String := []
  stakeReceipts : List String := []

open Collection in
/-- **Nothing is written outside a footprint**, and no document is gone.
Purchases and receipts are new, what wallets bought and staked may be new, and
a credit may open an entry; no other document came in. -/
structure Ledgers.Framed (f : Footprint) (l l' : Ledgers) : Prop where
  assets : Amends f.assets l.assets l'.assets
  nfts : Amends f.nfts l.nfts l'.nfts
  fnfts : Amends f.fnfts l.fnfts l'.fnfts
  offerings : Amends f.offerings l.offerings l'.offerings
  purchases : Enters f.purchases l.purchases l'.purchases
  whitelist : Within f.whitelist l.whitelist l'.whitelist
  revenue : Books f.credited f.closed l.revenue l'.revenue
  withdrawals : Amends f.withdrawals l.withdrawals l'.withdrawals
  admins : Amends f.admins l.admins l'.admins
  pools : Amends f.pools l.pools l'.pools
  stakes : Within f.stakes l.stakes l'.stakes
  stakeReceipts : Enters f.stakeReceipts l.stakeReceipts l'.stakeReceipts

end ChainLedger
