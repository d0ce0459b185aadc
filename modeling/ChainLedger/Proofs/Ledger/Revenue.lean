import ChainLedger.Proofs.Ledger.Evolution

/-!
# The revenue ledger after a credit and after a closing

A credit changes one entry: it tops up the open entry of its account or opens
one (`of_credit`). A closing marks the open entries that are due
(`of_markWithdrawn`). Both leave later ledgers and nothing but the revenue is
touched.
-/

namespace ChainLedger

namespace RevenueEntry

variable {e : RevenueEntry} {a : Account}

theorem isOpenFor_iff : e.isOpenFor a = true ↔ e.isWithdrawn = false ∧ e.account = a := by
  simp [isOpenFor]

end RevenueEntry

namespace Ledgers

variable {l l' : Ledgers} {now : Readings} {clock : Clock} {a : Account} {e : RevenueEntry}
  {beneficiary offering id : String} {amount : Decimal} {quote : Quote}

/-! ## Open entries -/

/-- The open entry of an account is in the ledger. -/
theorem of_openEntry?_eq_some (h : l.openEntry? a = some e) :
    (∃ k, l.revenue.get? k = some e) ∧ e.isWithdrawn = false ∧ e.account = a := by
  unfold openEntry? Collection.find? at h
  have hopen : e.isOpenFor a = true := by simpa only using List.find?_some h
  exact ⟨Collection.mem_toList.mp (List.mem_of_find?_eq_some h),
    RevenueEntry.isOpenFor_iff.mp hopen⟩

/-- No entry of an account is open. -/
theorem openEntry?_eq_none_iff :
    l.openEntry? a = none ↔
      ∀ k e, l.revenue.get? k = some e → e.account = a → e.isWithdrawn = true := by
  unfold openEntry? Collection.find?
  rw [List.find?_eq_none]
  constructor
  · intro h k e hk ha
    have hclosed := h e (Collection.mem_toList.mpr ⟨k, hk⟩)
    rw [RevenueEntry.isOpenFor_iff] at hclosed
    by_contra hopen
    exact hclosed ⟨by simpa using hopen, ha⟩
  · intro h e he
    obtain ⟨k, hk⟩ := Collection.mem_toList.mp he
    rw [RevenueEntry.isOpenFor_iff]
    rintro ⟨hopen, ha⟩
    rw [h k e hk ha] at hopen
    cases hopen

/-- **At most one entry of an account is open.** -/
def SingleOpen (l : Ledgers) : Prop :=
  ∀ k k' e e', l.revenue.get? k = some e → l.revenue.get? k' = some e' →
    e.isWithdrawn = false → e'.isWithdrawn = false → e.account = e'.account → k = k'

/-- The only open entry of an account is the one that is found. -/
theorem SingleOpen.openEntry?_eq (h : l.SingleOpen) {k : String} (hk : l.revenue.get? k = some e)
    (hopen : e.isWithdrawn = false) (ha : e.account = a) : l.openEntry? a = some e := by
  cases hfind : l.openEntry? a with
  | none =>
    rw [openEntry?_eq_none_iff.mp hfind k e hk ha] at hopen
    cases hopen
  | some e' =>
    obtain ⟨⟨k', hk'⟩, hopen', ha'⟩ := of_openEntry?_eq_some hfind
    obtain rfl := h k k' e e' hk hk' hopen hopen' (ha.trans ha'.symm)
    rw [← hk', hk]

/-! ## Credits -/

theorem of_credit (h : l.credit clock beneficiary offering amount quote = .ok (id, l')) :
    (∃ e balance revenue, l.openEntry? ⟨beneficiary, offering, quote.currency⟩ = some e ∧
      e.balance.add? amount = some balance ∧
      l.revenue.update (clock 0) e.id (fun e => { e with balance := balance }) = .ok revenue ∧
      id = e.id ∧ l' = { l with revenue := revenue }) ∨
    (∃ entry revenue, l.openEntry? ⟨beneficiary, offering, quote.currency⟩ = none ∧
      entry = ⟨id, beneficiary, offering, amount, quote.currency, quote.rate, false, clock 0 id⟩ ∧
      l.revenue.insert (clock 1) entry = .ok revenue ∧ l' = { l with revenue := revenue }) := by
  simp only [credit, bind_eq_ok, require_eq_ok] at h
  obtain ⟨-, -, h⟩ := h
  split at h
  · next e he =>
    simp only [topUp, bind_eq_ok, orOverflow_eq_ok, pure_eq_ok, Prod.mk.injEq] at h
    obtain ⟨_, ⟨balance, hbalance, revenue, hrevenue, rfl⟩, rfl, rfl⟩ := h
    exact .inl ⟨e, balance, revenue, he, hbalance, hrevenue, rfl, rfl⟩
  · next he =>
    simp only [openEntry, bind_eq_ok, pure_eq_ok, Prod.mk.injEq] at h
    obtain ⟨revenue, hrevenue, rfl, rfl⟩ := h
    exact .inr ⟨_, revenue, he, rfl, hrevenue, rfl⟩

/-- A credit leaves later ledgers. -/
theorem follows_credit (hl : l.Keyed)
    (h : l.credit clock beneficiary offering amount quote = .ok (id, l')) : l.Follows l' := by
  rcases of_credit h with ⟨e, balance, revenue, hopen, -, hrevenue, -, rfl⟩ |
    ⟨entry, revenue, -, -, hrevenue, rfl⟩
  · obtain ⟨⟨k, hk⟩, hwasOpen, -⟩ := of_openEntry?_eq_some hopen
    have hr := Collection.revises_update hrevenue Later.refl fun e' t he' ht => by
      obtain rfl : e = e' := by
        have hid : e.id = k := hl.revenue k e hk
        rw [hid, hk] at he'
        exact Option.some.inj he'
      exact .of_stamp ht ⟨rfl, rfl, rfl, hwasOpen⟩
    exact { Ledgers.Follows.refl l with revenue := hr.grows }
  · exact { Ledgers.Follows.refl l with revenue := Collection.grows_insert hrevenue }

/-! ## Closings -/

theorem of_markWithdrawn {currency : Option Address} {total : Decimal}
    (h : l.markWithdrawn now beneficiary offering currency = .ok (total, l')) :
    ∃ revenue,
      sumBalances (l.revenue.filter (isDue beneficiary offering currency)) = some total ∧
      l.revenue.updateMany now (isDue beneficiary offering currency)
        (fun e => { e with isWithdrawn := true }) = .ok revenue ∧
      l' = { l with revenue := revenue } := by
  simp only [markWithdrawn, bind_eq_ok, orOverflow_eq_ok, pure_eq_ok, Prod.mk.injEq] at h
  obtain ⟨total, htotal, revenue, hrevenue, rfl, rfl⟩ := h
  exact ⟨revenue, htotal, hrevenue, rfl⟩

theorem isDue_iff {currency : Address} :
    isDue beneficiary offering (some currency) e = true ↔
      e.isWithdrawn = false ∧ e.account = ⟨beneficiary, offering, currency⟩ := by
  simp only [isDue, RevenueEntry.account, Option.all_some, Bool.and_eq_true, Bool.not_eq_true',
    decide_eq_true_eq, Account.mk.injEq, and_assoc]
  rw [eq_comm (a := currency)]

/-- A closing leaves later ledgers. -/
theorem follows_markWithdrawn {currency : Option Address} {total : Decimal}
    (h : l.markWithdrawn now beneficiary offering currency = .ok (total, l')) :
    l.Follows l' := by
  obtain ⟨revenue, -, hrevenue, rfl⟩ := of_markWithdrawn h
  have hr := Collection.revises_updateMany hrevenue Later.refl fun e t hdue ht => by
    refine .of_stamp ht ⟨rfl, rfl, rfl, ?_⟩
    simp only [isDue, Bool.and_eq_true, Bool.not_eq_true'] at hdue
    exact hdue.1.1.1
  exact { Ledgers.Follows.refl l with revenue := hr.grows }

end Ledgers

end ChainLedger
