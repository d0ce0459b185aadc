import ChainLedger.Proofs.Ledger.Key
import ChainLedger.Proofs.Ledger.Revenue
import ChainLedger.Proofs.Ledger.Room
import Mathlib.Data.List.Perm.Basic
import Mathlib.Logic.Relation

/-!
# Generations of entries

In ledgers whose entries were all opened by credits, the entries of an account
are numbered: they have the ids `entryId 0`, `entryId 1` and so on, as many as
there are (`Ledgers.Numbered`, for any history by `Kept.numbered`). So the id
of the next one is free, unless another account has taken it. Ids are glued,
and two accounts share theirs exactly if they are of one currency and their
beneficiaries and offerings are glued to one text (`Account.entryId_eq_iff`).

`Ledgers.Credited` says what a credit comes to, in all cases. One that opens an
entry is refused when an account of the same name is some entries ahead
(`Ledgers.Clashes`), and then it is refused for ever (`Clashes.persists`).
Where beneficiaries have no colon in their ids this does not happen
(`not_clashes`).
-/

namespace ChainLedger

open Collection

/-! ## Ids of entries -/

/-- What the ids of an account begin with. -/
def Account.name (a : Account) : String :=
  a.beneficiaryId ++ ":" ++ a.offeringId ++ ":" ++ a.currency.checksummed

/-- The ids of the beneficiary and the offering, as they are glued. -/
def Account.pair (a : Account) : String := a.beneficiaryId ++ ":" ++ a.offeringId

section Texts

variable {cs cs' ds ds' : List Char} {c : Char}

/-- What stands before the first mark, and what stands after it. -/
theorem eq_of_first_mark_eq (hc : c ∉ cs) (hc' : c ∉ cs') (h : cs ++ c :: ds = cs' ++ c :: ds') :
    cs = cs' ∧ ds = ds' := by
  -- Were one of the two longer, it would hold the first mark of the other.
  rcases List.append_eq_append_iff.mp h with ⟨es, rfl, hes⟩ | ⟨es, rfl, hes⟩
  all_goals
    cases es with
    | nil => simpa [eq_comm] using hes
    | cons e es =>
      obtain ⟨rfl, -⟩ := List.cons.inj hes
      simp at hc hc'

/-- What stands before the last mark, and what stands after it. -/
theorem eq_of_last_mark_eq (hd : c ∉ ds) (hd' : c ∉ ds') (h : cs ++ c :: ds = cs' ++ c :: ds') :
    cs = cs' ∧ ds = ds' := by
  have hreverse := congrArg List.reverse h
  simp only [List.reverse_append, List.reverse_cons, List.append_assoc, List.singleton_append]
    at hreverse
  obtain ⟨hds, hcs⟩ := eq_of_first_mark_eq (List.mem_reverse.not.mpr hd)
    (List.mem_reverse.not.mpr hd') hreverse
  exact ⟨List.reverse_inj.mp hcs, List.reverse_inj.mp hds⟩

theorem colon_not_mem_toString (n : Nat) : ':' ∉ (toString n).toList := by
  intro hmem
  rw [Nat.toString_eq_repr, Nat.repr_eq_ofList_toDigits, String.toList_ofList] at hmem
  have hdigit := Nat.isDigit_of_mem_toDigits (by decide) (by decide) hmem
  exact absurd hdigit (by decide)

end Texts

namespace Account

variable {a b : Account} {n m : Nat}

theorem name_eq_iff : a.name = b.name ↔ a.pair = b.pair ∧ a.currency = b.currency := by
  constructor
  · intro h
    have hlist := congrArg String.toList h
    simp only [name, String.toList_append] at hlist
    have hlen : a.currency.checksummed.toList.length = b.currency.checksummed.toList.length := by
      rw [Address.length_toList_checksummed, Address.length_toList_checksummed]
    obtain ⟨hfront, hback⟩ := List.append_inj' hlist hlen
    have hpair := List.append_cancel_right hfront
    simp only [← String.toList_append] at hpair
    exact ⟨String.toList_inj.mp hpair, Address.checksummed_inj (String.toList_inj.mp hback)⟩
  · rintro ⟨hpair, hcurrency⟩
    simp only [pair] at hpair
    rw [name, name, hpair, hcurrency]

/-- **Two accounts share an id** only if they share their names, and then at the
same number. -/
theorem entryId_eq_iff_name : a.entryId n = b.entryId m ↔ a.name = b.name ∧ n = m := by
  constructor
  · intro h
    have hlist : a.name.toList ++ ':' :: (toString n).toList =
        b.name.toList ++ ':' :: (toString m).toList := by
      have hlist := congrArg String.toList h
      simpa [entryId, name] using hlist
    obtain ⟨hname, hnumber⟩ := eq_of_last_mark_eq (colon_not_mem_toString n)
      (colon_not_mem_toString m) hlist
    refine ⟨String.toList_inj.mp hname, ?_⟩
    have hread := congrArg (Nat.ofDigitChars 10 · 0) hnumber
    simpa [Nat.toString_eq_ofList_toDigits] using hread
  · rintro ⟨hname, rfl⟩
    simp only [name] at hname
    rw [entryId, entryId, hname]

/-- **Ids are shared** where beneficiary and offering are glued to one text. -/
theorem entryId_eq_iff :
    a.entryId n = b.entryId m ↔ a.pair = b.pair ∧ a.currency = b.currency ∧ n = m := by
  rw [entryId_eq_iff_name, name_eq_iff, and_assoc]

/-- Without a colon in the ids of beneficiaries, the glued text tells accounts
apart. -/
theorem eq_of_name_eq (ha : ':' ∉ a.beneficiaryId.toList) (hb : ':' ∉ b.beneficiaryId.toList)
    (h : a.name = b.name) : a = b := by
  obtain ⟨hpair, hcurrency⟩ := name_eq_iff.mp h
  have hlist : a.beneficiaryId.toList ++ ':' :: a.offeringId.toList =
      b.beneficiaryId.toList ++ ':' :: b.offeringId.toList := by
    simpa [pair] using congrArg String.toList hpair
  obtain ⟨hbeneficiary, hoffering⟩ := eq_of_first_mark_eq ha hb hlist
  obtain ⟨b₁, o₁, c₁⟩ := a
  obtain ⟨b₂, o₂, c₂⟩ := b
  rw [Account.mk.injEq]
  exact ⟨String.toList_inj.mp hbeneficiary, String.toList_inj.mp hoffering, hcurrency⟩

end Account

/-! ## Documents in order -/

namespace Collection

variable {α : Type} {c c' : Collection α} {now : Readings} {f : α → α} {a : α} {key : String}

theorem perm_place (es : List (String × α)) (h : key ∉ es.map Prod.fst) :
    (place key a es).Perm ((key, a) :: es) := by
  induction es with
  | nil => exact .refl _
  | cons e es ih =>
    rw [List.map_cons, List.mem_cons, not_or] at h
    unfold place
    split
    · exact .refl _
    · rw [if_neg h.1]
      exact ((ih h.2).cons e).trans (.swap ..)

variable [Document α]

/-- **An insertion** adds one document. -/
theorem perm_insert (h : c.insert now a = .ok c') :
    ∃ t, c'.toList.Perm (Document.stamp t a :: c.toList) := by
  unfold insert at h
  split at h
  · cases h
  · next hfree =>
    obtain ⟨b, hb, h⟩ := bind_eq_ok.mp h
    obtain ⟨t, -, rfl⟩ := of_touch hb
    rw [← pure_eq_ok.mp h]
    have hnew : Document.key a ∉ c.entries.map Prod.fst := by
      intro hmem
      obtain ⟨e, he, hkey⟩ := List.mem_map.mp hmem
      exact hfree (contains_iff.mpr ⟨e.2, get?_eq_some_iff.mpr (hkey ▸ he)⟩)
    exact ⟨t, (perm_place (a := Document.stamp t a) c.entries hnew).map Prod.snd⟩

/-- **A change leaves what it does not touch**: what is read off the documents,
in order, stays. -/
theorem map_toList_change {β : Type} {g : α → β} {p : String × α → Bool}
    (h : c.change now p f = .ok c') (hg : ∀ t a, g (Document.stamp t (f a)) = g a) :
    c'.toList.map g = c.toList.map g := by
  have hlist {es es' : List (String × α)} (hes : changeAll now p f es = .ok es') :
      es'.map (fun e => g e.2) = es.map (fun e => g e.2) := by
    induction es generalizing es' with
    | nil =>
      cases hes
      rfl
    | cons e es ih =>
      obtain ⟨b, hb, hes⟩ := bind_eq_ok.mp hes
      obtain ⟨rest, hrest, hes⟩ := bind_eq_ok.mp hes
      have hsame : g b = g e.2 := by
        unfold changeIf at hb
        split at hb
        · obtain ⟨t, -, rfl⟩ := of_touch hb
          exact hg t e.2
        · rw [← Except.ok.inj hb]
      rw [← pure_eq_ok.mp hes, List.map_cons, List.map_cons, ih hrest, hsame]
  unfold change at h
  split at h
  · next hes =>
    cases h
    rw [toList, toList, List.map_map, List.map_map]
    exact hlist hes
  · cases h

theorem map_toList_update {β : Type} {g : α → β} (h : c.update now key f = .ok c')
    (hg : ∀ t a, g (Document.stamp t (f a)) = g a) : c'.toList.map g = c.toList.map g := by
  unfold update at h
  split at h
  · exact map_toList_change h hg
  · cases h

end Collection

/-! ## Writes that are refused -/

namespace Collection

variable {α : Type} [Document α] {c : Collection α} {now : Readings} {f : α → α} {a b : α}
  {key : String}

/-- **No document goes under a key that is taken.** -/
theorem insert_of_taken (h : c.get? (Document.key a) = some b) :
    c.insert now a =
      .error (.store (.duplicateKey (Document.collection α) (Document.key a))) := by
  rw [insert, if_pos (contains_iff.mpr ⟨b, h⟩)]

/-- A document goes under a key that is free, or is at the end of the calendar. -/
theorem insert_of_free (h : c.get? (Document.key a) = none) :
    (∃ c', c.insert now a = .ok c') ∨
      ((Document.updatedAt a).succMicro? = none ∧ c.insert now a = .error (.trap .instant)) := by
  cases hu : (Document.updatedAt a).succMicro? with
  | some u =>
    refine .inl (exists_insert h ?_)
    rw [Instant.room_of_succMicro? hu]
    exact Nat.succ_pos _
  | none =>
    have htouch : touch (now (Document.key a)) a = .error (.trap .instant) := by
      rw [touch, Instant.bump?, hu]
      rfl
    rw [insert, if_neg (not_contains_iff.mpr h), htouch]
    exact .inr ⟨rfl, rfl⟩

/-- A document that is there is written, or is at the end of the calendar. -/
theorem update_of_found (h : c.get? key = some a) :
    (∃ c', c.update now key f = .ok c') ∨
      ((Document.updatedAt (f a)).succMicro? = none ∧
        c.update now key f = .error (.trap .instant)) := by
  rcases update_ok_or_trap now f h with hok | htrap
  · exact .inl hok
  · refine .inr ⟨Option.eq_none_iff_forall_ne_some.mpr fun u hu => ?_, htrap⟩
    have hroom : 0 < (Document.updatedAt (f a)).room := by
      rw [Instant.room_of_succMicro? hu]
      exact Nat.succ_pos _
    obtain ⟨c', hok⟩ : ∃ c', c.update now key f = .ok c' := exists_update h hroom
    rw [htrap] at hok
    cases hok

end Collection

/-! ## Credits and closings -/

/-- **The entry is the same one**, of the same account, and still closed if it
was. -/
structure RevenueEntry.Stays (e e' : RevenueEntry) : Prop where
  id : e'.id = e.id
  account : e'.account = e.account
  closed : e.isWithdrawn = true → e'.isWithdrawn = true

namespace Ledgers

variable {l l' : Ledgers} {clock : Clock} {now : Readings} {a b : Account} {e : RevenueEntry}
  {beneficiary offering : String} {amount : Decimal} {quote : Quote} {n : Nat}

/-- **What happens to revenue**: credits and closings, and whatever leaves it
alone. -/
inductive RevenueStep : Ledgers → Ledgers → Prop
  | credit {l l' : Ledgers} {clock : Clock} {beneficiary offering id : String} {amount : Decimal}
      {quote : Quote} (h : l.credit clock beneficiary offering amount quote = .ok (id, l')) :
      RevenueStep l l'
  | close {l l' : Ledgers} {now : Readings} {beneficiary offering : String}
      {currency : Option Address} {total : Decimal}
      (h : l.markWithdrawn now beneficiary offering currency = .ok (total, l')) : RevenueStep l l'
  | aside {l l' : Ledgers} (h : l'.revenue = l.revenue) : RevenueStep l l'

/-- **Ledgers whose entries were all opened by credits.** -/
def Kept (l : Ledgers) : Prop :=
  ∃ l₀, l₀.revenue = .empty ∧ Relation.ReflTransGen RevenueStep l₀ l

/-- The accounts of the entries, in order. -/
def accounts (l : Ledgers) : List Account := l.revenue.toList.map (·.account)

theorem generation_eq_count (l : Ledgers) (a : Account) : l.generation a = l.accounts.count a := by
  rw [generation, accounts, Collection.filter, List.count, List.countP_map,
    List.countP_eq_length_filter]
  rfl

/-- **Entries are tended to**, and none comes in. -/
structure Tends (l l' : Ledgers) : Prop where
  revises : Revises RevenueEntry.Stays l.revenue l'.revenue
  accounts : l'.accounts = l.accounts

/-- **An entry is opened** under the next id of its account. -/
structure Opens (a : Account) (l l' : Ledgers) : Prop where
  none_open : l.openEntry? a = none
  free : l.revenue.get? (a.entryId (l.generation a)) = none
  entry : ∃ e : RevenueEntry, e.id = a.entryId (l.generation a) ∧ e.account = a ∧
    ∀ k, l'.revenue.get? k = if k = e.id then some e else l.revenue.get? k
  accounts : l'.accounts.Perm (a :: l.accounts)

theorem tends_topUp (h : l.topUp clock e amount = .ok l') : Tends l l' := by
  simp only [topUp, bind_eq_ok, orOverflow_eq_ok, pure_eq_ok] at h
  obtain ⟨balance, -, revenue, hrevenue, rfl⟩ := h
  exact ⟨revises_update hrevenue (fun _ => ⟨rfl, rfl, id⟩) fun _ _ _ _ => ⟨rfl, rfl, id⟩,
    map_toList_update hrevenue fun _ _ => rfl⟩

theorem tends_markWithdrawn {currency : Option Address} {total : Decimal}
    (h : l.markWithdrawn now beneficiary offering currency = .ok (total, l')) : Tends l l' := by
  obtain ⟨revenue, -, hrevenue, rfl⟩ := of_markWithdrawn h
  exact ⟨revises_updateMany hrevenue (fun _ => ⟨rfl, rfl, id⟩)
    fun _ _ _ _ => ⟨rfl, rfl, fun _ => rfl⟩, map_toList_change hrevenue fun _ _ => rfl⟩

theorem opens_openEntry {rate : Decimal} {id : String} (hnone : l.openEntry? a = none)
    (h : l.openEntry clock a amount rate = .ok (id, l')) : Opens a l l' := by
  simp only [openEntry, bind_eq_ok, pure_eq_ok, Prod.mk.injEq] at h
  obtain ⟨revenue, hrevenue, rfl, rfl⟩ := h
  obtain ⟨hfree, t, -, hget⟩ := get?_insert hrevenue
  obtain ⟨u, hperm⟩ := perm_insert hrevenue
  refine ⟨hnone, hfree, ⟨⟨a.entryId (l.generation a), a.beneficiaryId, a.offeringId, amount,
    a.currency, rate, false, t⟩, rfl, rfl, hget⟩, hperm.map _⟩

/-! A credit tops up the open entry of its account, or opens one. -/

theorem credit_of_open (hamount : Decimal.zero < amount)
    (ho : l.openEntry? ⟨beneficiary, offering, quote.currency⟩ = some e) :
    l.credit clock beneficiary offering amount quote =
      (l.topUp clock e amount).map fun l' => (e.id, l') := by
  rw [credit, require_bind_of hamount]
  simp only [ho]
  cases l.topUp clock e amount <;> rfl

theorem credit_of_none (hamount : Decimal.zero < amount)
    (hnone : l.openEntry? ⟨beneficiary, offering, quote.currency⟩ = none) :
    l.credit clock beneficiary offering amount quote =
      l.openEntry clock ⟨beneficiary, offering, quote.currency⟩ amount quote.rate := by
  rw [credit, require_bind_of hamount]
  simp only [hnone]

/-- **What a step does to the entries.** -/
theorem RevenueStep.tends_or_opens (h : RevenueStep l l') : Tends l l' ∨ ∃ a, Opens a l l' := by
  cases h with
  | @credit clock beneficiary offering id amount quote h =>
    have hamount : Decimal.zero < amount := by
      simp only [Ledgers.credit, bind_eq_ok, require_eq_ok] at h
      exact h.choose_spec.1
    cases ho : l.openEntry? ⟨beneficiary, offering, quote.currency⟩ with
    | some e =>
      rw [credit_of_open hamount ho] at h
      obtain ⟨_, htopUp, hout⟩ := map_eq_ok.mp h
      cases hout
      exact .inl (tends_topUp htopUp)
    | none =>
      rw [credit_of_none hamount ho] at h
      exact .inr ⟨_, opens_openEntry ho h⟩
  | close h => exact .inl (tends_markWithdrawn h)
  | aside h =>
    refine .inl ⟨?_, by rw [accounts, h, accounts]⟩
    rw [h]
    exact .refl fun _ => ⟨rfl, rfl, id⟩

/-! ## Entries are numbered -/

/-- **The entries of an account are numbered**, as many as there are. -/
structure Numbered (l : Ledgers) : Prop where
  keyed : l.revenue.Keyed
  /-- Every entry has an id of its account, below the number of its entries. -/
  numbered : ∀ k e, l.revenue.get? k = some e →
    ∃ n, n < l.generation e.account ∧ k = e.account.entryId n
  /-- Every such id is that of an entry. -/
  taken : ∀ a n, n < l.generation a →
    ∃ e, l.revenue.get? (a.entryId n) = some e ∧ e.account = a

theorem Tends.generation_eq (h : Tends l l') (a : Account) : l'.generation a = l.generation a := by
  rw [generation_eq_count, h.accounts, generation_eq_count]

theorem Opens.generation_eq (h : Opens a l l') (b : Account) :
    l'.generation b = l.generation b + if a = b then 1 else 0 := by
  rw [generation_eq_count, h.accounts.count_eq, List.count_cons, generation_eq_count]
  simp only [beq_iff_eq]

theorem numbered_of_empty (h : l.revenue = .empty) : l.Numbered where
  keyed := h ▸ keyed_empty
  numbered k e hk := by
    rw [h, get?_empty] at hk
    cases hk
  taken a n hn := by
    rw [generation, h] at hn
    exact absurd hn (Nat.not_lt_zero n)

theorem Numbered.tends (h : l.Numbered) (ht : Tends l l') : l'.Numbered where
  keyed k e hk := by
    obtain ⟨e₀, hk₀, hstays⟩ := ht.revises.before hk
    exact hstays.id.trans (h.keyed k e₀ hk₀)
  numbered k e hk := by
    obtain ⟨e₀, hk₀, hstays⟩ := ht.revises.before hk
    rw [hstays.account, ht.generation_eq]
    exact h.numbered k e₀ hk₀
  taken a n hn := by
    rw [ht.generation_eq] at hn
    obtain ⟨e₀, hk₀, ha⟩ := h.taken a n hn
    obtain ⟨e, hk, hstays⟩ := ht.revises.still _ e₀ hk₀
    exact ⟨e, hk, hstays.account.trans ha⟩

theorem Numbered.opens (h : l.Numbered) (ho : Opens a l l') : l'.Numbered := by
  obtain ⟨e, hid, ha, hget⟩ := ho.entry
  have hnew : l'.revenue.get? e.id = some e := (hget _).trans (if_pos rfl)
  constructor
  case keyed =>
    intro k e' hk
    rw [hget] at hk
    split at hk
    · next hkey => exact Option.some.inj hk ▸ hkey.symm
    · exact h.keyed k e' hk
  case numbered =>
    intro k e' hk
    rw [hget] at hk
    split at hk
    · next hkey =>
      rw [← Option.some.inj hk, ha, ho.generation_eq, if_pos rfl]
      exact ⟨_, Nat.lt_succ_self _, hkey.trans hid⟩
    · obtain ⟨n, hn, hkey⟩ := h.numbered k e' hk
      rw [ho.generation_eq]
      exact ⟨n, Nat.lt_add_right _ hn, hkey⟩
  case taken =>
    intro b n hn
    rw [ho.generation_eq] at hn
    by_cases hold : n < l.generation b
    · obtain ⟨e₀, hk, hb⟩ := h.taken b n hold
      have hne : b.entryId n ≠ e.id := by
        intro heq
        rw [heq, hid, ho.free] at hk
        cases hk
      exact ⟨e₀, (hget _).trans ((if_neg hne).trans hk), hb⟩
    · -- The number that is new is that of the entry that was opened.
      have hab : a = b := by
        by_contra hab
        rw [if_neg hab] at hn
        exact hold hn
      subst hab
      rw [if_pos rfl] at hn
      obtain rfl : n = l.generation a := by omega
      exact ⟨e, hid ▸ hnew, ha⟩

theorem Numbered.step (h : l.Numbered) (hstep : RevenueStep l l') : l'.Numbered := by
  rcases hstep.tends_or_opens with ht | ⟨a, ho⟩
  · exact h.tends ht
  · exact h.opens ho

/-- **After any history** the entries of an account are numbered. -/
theorem Kept.numbered (h : l.Kept) : l.Numbered := by
  obtain ⟨l₀, hempty, hsteps⟩ := h
  induction hsteps with
  | refl => exact numbered_of_empty hempty
  | tail _ hstep ih => exact ih.step hstep

/-! ## Clashes -/

/-- **Another account has taken the next id**: it has the same name, and more
entries. -/
def Clashes (l : Ledgers) (a : Account) : Prop :=
  l.openEntry? a = none ∧ ∃ b, b.name = a.name ∧ l.generation a < l.generation b

theorem Numbered.clashes_iff (h : l.Numbered) (hnone : l.openEntry? a = none) :
    l.Clashes a ↔ ∃ e, l.revenue.get? (a.entryId (l.generation a)) = some e := by
  constructor
  · rintro ⟨-, b, hname, hlt⟩
    obtain ⟨e, hk, -⟩ := h.taken b _ hlt
    rw [Account.entryId_eq_iff_name.mpr ⟨hname, rfl⟩] at hk
    exact ⟨e, hk⟩
  · rintro ⟨e, hk⟩
    obtain ⟨n, hn, hid⟩ := h.numbered _ e hk
    obtain ⟨hname, rfl⟩ := Account.entryId_eq_iff_name.mp hid
    exact ⟨hnone, e.account, hname.symm, hn⟩

theorem exists_entry_of_lt (h : n < l.generation a) :
    ∃ k e, l.revenue.get? k = some e ∧ e.account = a := by
  rw [generation_eq_count] at h
  have hmem : a ∈ l.accounts := List.count_pos_iff.mp (Nat.zero_lt_of_lt h)
  obtain ⟨e, he, ha⟩ := List.mem_map.mp hmem
  obtain ⟨k, hk⟩ := mem_toList.mp he
  exact ⟨k, e, hk, ha⟩

/-- **Without a colon in the ids of beneficiaries** no two accounts clash. -/
theorem not_clashes (ha : ':' ∉ a.beneficiaryId.toList)
    (hl : ∀ k e, l.revenue.get? k = some e → ':' ∉ e.beneficiaryId.toList) : ¬ l.Clashes a := by
  rintro ⟨-, b, hname, hlt⟩
  obtain ⟨k, e, hk, rfl⟩ := exists_entry_of_lt hlt
  rw [Account.eq_of_name_eq (hl k e hk) ha hname] at hlt
  exact Nat.lt_irrefl _ hlt

/-- An entry is refused under an id that is taken. -/
theorem Numbered.openEntry_of_clashes (h : l.Numbered) (hc : l.Clashes a) (rate : Decimal) :
    l.openEntry clock a amount rate =
      .error (.store (.duplicateKey (Document.collection RevenueEntry)
        (a.entryId (l.generation a)))) := by
  obtain ⟨e, hk⟩ := (h.clashes_iff hc.1).mp hc
  rw [openEntry, insert_of_taken hk]
  rfl

/-- **A clash stays**, whatever happens to revenue. -/
theorem Clashes.step (h : l.Numbered) (hc : l.Clashes a) (hstep : RevenueStep l l') :
    l'.Clashes a := by
  obtain ⟨hnone, b, hname, hlt⟩ := hc
  have hclosed := openEntry?_eq_none_iff.mp hnone
  rcases hstep.tends_or_opens with ht | ⟨a₁, ho⟩
  · refine ⟨openEntry?_eq_none_iff.mpr fun k e hk ha => ?_, b, hname, ?_⟩
    · obtain ⟨e₀, hk₀, hstays⟩ := ht.revises.before hk
      exact hstays.closed (hclosed k e₀ hk₀ (hstays.account.symm.trans ha))
    · rw [ht.generation_eq, ht.generation_eq]
      exact hlt
  · -- The entry that was opened is not of this account, whose next id is taken.
    have hne : a₁ ≠ a := by
      rintro rfl
      obtain ⟨e, hk⟩ := (h.clashes_iff hnone).mp ⟨hnone, b, hname, hlt⟩
      rw [ho.free] at hk
      cases hk
    obtain ⟨e₁, -, ha₁, hget⟩ := ho.entry
    refine ⟨openEntry?_eq_none_iff.mpr fun k e hk ha => ?_, b, hname, ?_⟩
    · rw [hget] at hk
      split at hk
      · obtain rfl := Option.some.inj hk
        exact absurd (ha₁.symm.trans ha) hne
      · exact hclosed k e hk ha
    · rw [ho.generation_eq, ho.generation_eq, if_neg hne]
      omega

/-- **A clash is for ever.** -/
theorem Clashes.persists (h : l.Numbered) (hc : l.Clashes a)
    (hsteps : Relation.ReflTransGen RevenueStep l l') : l'.Numbered ∧ l'.Clashes a := by
  induction hsteps with
  | refl => exact ⟨h, hc⟩
  | tail _ hstep ih => exact ⟨ih.1.step hstep, ih.2.step ih.1 hstep⟩

/-! ## What a credit comes to -/

/-- **One entry was written** under its id, and nothing else. -/
structure Enters (e : RevenueEntry) (l l' : Ledgers) : Prop where
  aside : l' = { l with revenue := l'.revenue }
  get? : ∀ k, l'.revenue.get? k = if k = e.id then some e else l.revenue.get? k

/-- **What becomes of a credit** to an account. -/
inductive Credited (l : Ledgers) (clock : Clock) (a : Account) (amount rate : Decimal) :
    Except Refusal (String × Ledgers) → Prop
  /-- The open entry takes up the amount. -/
  | toppedUp {e : RevenueEntry} {balance : Decimal} {t : Instant} {l' : Ledgers}
      (ho : l.openEntry? a = some e) (hsum : e.balance.add? amount = some balance)
      (henters : Enters { e with balance := balance, updatedAt := t } l l') :
      Credited l clock a amount rate (.ok (e.id, l'))
  /-- An entry is opened with the amount. -/
  | opened {t : Instant} {l' : Ledgers} (hnone : l.openEntry? a = none) (hfree : ¬ l.Clashes a)
      (henters : Enters ⟨a.entryId (l.generation a), a.beneficiaryId, a.offeringId, amount,
        a.currency, rate, false, t⟩ l l') :
      Credited l clock a amount rate (.ok (a.entryId (l.generation a), l'))
  /-- The balance with the amount leaves the decimal range. -/
  | overflow {e : RevenueEntry} (ho : l.openEntry? a = some e)
      (hsum : e.balance.add? amount = none) :
      Credited l clock a amount rate (.error (.breach (.overflow (.entry e.id))))
  /-- The next id is that of an entry of another account. -/
  | clash (hc : l.Clashes a) :
      Credited l clock a amount rate (.error (.store (.duplicateKey
        (Document.collection RevenueEntry) (a.entryId (l.generation a)))))
  /-- The watermark would leave the calendar. -/
  | late {t : Instant} (ht : t.succMicro? = none)
      (hat : (∃ e, l.openEntry? a = some e ∧ e.updatedAt = t) ∨
        l.openEntry? a = none ∧ t = clock 0 (a.entryId (l.generation a))) :
      Credited l clock a amount rate (.error (.trap .instant))

/-- An entry is opened under an id that is free, or the clock is at the end of the
calendar. -/
theorem openEntry_of_free (hfree : l.revenue.get? (a.entryId (l.generation a)) = none)
    (rate : Decimal) :
    (∃ t l', l.openEntry clock a amount rate = .ok (a.entryId (l.generation a), l') ∧
      Enters ⟨a.entryId (l.generation a), a.beneficiaryId, a.offeringId, amount, a.currency,
        rate, false, t⟩ l l') ∨
      ((clock 0 (a.entryId (l.generation a))).succMicro? = none ∧
        l.openEntry clock a amount rate = .error (.trap .instant)) := by
  let entry : RevenueEntry := ⟨a.entryId (l.generation a), a.beneficiaryId, a.offeringId, amount,
    a.currency, rate, false, clock 0 (a.entryId (l.generation a))⟩
  rw [openEntry]
  have hinsert : (∃ revenue, l.revenue.insert (clock 1) entry = .ok revenue) ∨
      (entry.updatedAt.succMicro? = none ∧
        l.revenue.insert (clock 1) entry = .error (.trap .instant)) :=
    insert_of_free hfree
  rcases hinsert with ⟨revenue, hrevenue⟩ | ⟨hlate, htrap⟩
  · obtain ⟨-, t, -, hget⟩ := get?_insert hrevenue
    rw [hrevenue]
    exact .inl ⟨t, _, rfl, rfl, hget⟩
  · rw [htrap]
    exact .inr ⟨hlate, rfl⟩

/-- An open entry takes up what its balance has room for, or is at the end of the
calendar. -/
theorem topUp_of_add? {balance : Decimal} (hk : l.revenue.get? e.id = some e)
    (hsum : e.balance.add? amount = some balance) :
    (∃ t l', l.topUp clock e amount = .ok l' ∧
      Enters { e with balance := balance, updatedAt := t } l l') ∨
      (e.updatedAt.succMicro? = none ∧ l.topUp clock e amount = .error (.trap .instant)) := by
  rw [topUp, hsum, orOverflow, ok_bind]
  have hupdate : (∃ revenue,
        l.revenue.update (clock 0) e.id (fun e => { e with balance := balance }) =
          .ok revenue) ∨ (e.updatedAt.succMicro? = none ∧
      l.revenue.update (clock 0) e.id (fun e => { e with balance := balance }) =
        .error (.trap .instant)) := update_of_found hk
  rcases hupdate with ⟨revenue, hrevenue⟩ | ⟨hlate, htrap⟩
  · obtain ⟨t, hself⟩ := get?_update_self hrevenue hk
    rw [hrevenue]
    refine .inl ⟨t, _, rfl, rfl, fun k => ?_⟩
    split
    · next hkey => exact hkey ▸ hself
    · next hkey => exact get?_update_of_ne hrevenue hkey
  · rw [htrap]
    exact .inr ⟨hlate, rfl⟩

/-- **A credit is refused for these reasons only**, in any ledgers whose entries
are numbered. -/
theorem Numbered.credited (h : l.Numbered) (hamount : Decimal.zero < amount) :
    l.Credited clock ⟨beneficiary, offering, quote.currency⟩ amount quote.rate
      (l.credit clock beneficiary offering amount quote) := by
  cases ho : l.openEntry? ⟨beneficiary, offering, quote.currency⟩ with
  | some e =>
    rw [credit_of_open hamount ho]
    obtain ⟨⟨k, hk⟩, -, -⟩ := of_openEntry?_eq_some ho
    obtain rfl : e.id = k := h.keyed k e hk
    cases hsum : e.balance.add? amount with
    | none =>
      rw [topUp, hsum]
      exact .overflow ho hsum
    | some balance =>
      rcases topUp_of_add? hk hsum with ⟨t, l', hl', henters⟩ | ⟨hlate, htrap⟩
      · rw [hl']
        exact .toppedUp ho hsum henters
      · rw [htrap]
        exact .late hlate (.inl ⟨e, ho, rfl⟩)
  | none =>
    rw [credit_of_none hamount ho]
    by_cases hc : l.Clashes ⟨beneficiary, offering, quote.currency⟩
    · rw [h.openEntry_of_clashes hc]
      exact .clash hc
    · have hfree := (h.clashes_iff ho).not.mp hc
      rw [← Option.isSome_iff_exists, Option.not_isSome_iff_eq_none] at hfree
      rcases openEntry_of_free hfree quote.rate with ⟨t, l', hl', henters⟩ | ⟨hlate, htrap⟩
      · rw [hl']
        exact .opened ho hc henters
      · rw [htrap]
        exact .late hlate (.inr ⟨ho, rfl⟩)

/-- **What a credit comes to after any history**, and which ids of entries are
the same. -/
theorem Kept.credit_outcome (h : l.Kept) (hamount : Decimal.zero < amount) :
    l.Credited clock ⟨beneficiary, offering, quote.currency⟩ amount quote.rate
        (l.credit clock beneficiary offering amount quote) ∧
      ∀ (a b : Account) (n m : Nat), a.entryId n = b.entryId m ↔
        a.pair = b.pair ∧ a.currency = b.currency ∧ n = m :=
  ⟨h.numbered.credited hamount, fun _ _ _ _ => Account.entryId_eq_iff⟩

/-- An account with a colon in the id of its beneficiary. -/
def colonBefore : Account := ⟨"a:b", "c", default⟩

/-- An account with the colon in the id of its offering. -/
def colonAfter : Account := ⟨"a", "b:c", default⟩

/-- The first of them is credited. -/
def firstCredit : Except Refusal (String × Ledgers) :=
  (Seed.ledgers {}).credit (.still .epoch) "a:b" "c" .hundred ⟨default, .hundred⟩

/-- Ledgers after that. -/
def afterFirst : Ledgers := (firstCredit.toOption.map (·.2)).getD (Seed.ledgers {})

theorem opens_firstCredit :
    firstCredit = .ok (colonBefore.entryId 0, afterFirst) ∧
      Opens colonBefore (Seed.ledgers {}) afterFirst := by
  have hfree : (Seed.ledgers {}).revenue.get?
      (colonBefore.entryId ((Seed.ledgers {}).generation colonBefore)) = none := rfl
  have hcredit : firstCredit =
      (Seed.ledgers {}).openEntry (.still .epoch) colonBefore .hundred .hundred :=
    credit_of_none (by decide) rfl
  rcases @openEntry_of_free _ (.still .epoch) _ .hundred hfree .hundred with
    ⟨t, l', hl', -⟩ | ⟨hlate, -⟩
  · have hafter : afterFirst = l' := by rw [afterFirst, hcredit, hl']; rfl
    rw [hafter]
    exact ⟨hcredit.trans hl', opens_openEntry rfl hl'⟩
  · exact absurd hlate (by decide +kernel)

theorem kept_afterFirst : afterFirst.Kept :=
  ⟨Seed.ledgers {}, rfl, .single (.credit opens_firstCredit.1)⟩

theorem credit_outcome_afterFirst :
    afterFirst.Kept ∧ Decimal.zero < Decimal.hundred ∧
      afterFirst.Credited (.still .epoch) colonBefore .hundred .hundred
        (afterFirst.credit (.still .epoch) "a:b" "c" .hundred ⟨default, .hundred⟩) := by
  have hamount : Decimal.zero < Decimal.hundred := by decide
  obtain ⟨hcredited, -⟩ :=
    @Kept.credit_outcome _ (.still .epoch) "a:b" "c" _ ⟨default, .hundred⟩ kept_afterFirst hamount
  exact ⟨kept_afterFirst, hamount, hcredited⟩

/-- The second account has no entry, and the first one has one of the same name. -/
theorem clashes_afterFirst : afterFirst.Clashes colonAfter := by
  have ho := opens_firstCredit.2
  obtain ⟨e, -, ha, hget⟩ := ho.entry
  refine ⟨openEntry?_eq_none_iff.mpr fun k e' hk ha' => ?_, colonBefore,
    Account.name_eq_iff.mpr ⟨by decide, rfl⟩, ?_⟩
  · rw [hget] at hk
    split at hk
    · obtain rfl := Option.some.inj hk
      exact absurd (ha.symm.trans ha') (by decide)
    · cases hk
  · rw [ho.generation_eq, ho.generation_eq]
    decide

/-- **A first credit is refused** for an entry of another account. -/
theorem refused_colonAfter :
    afterFirst.Kept ∧ Decimal.zero < Decimal.hundred ∧
      afterFirst.openEntry? colonAfter = none ∧ colonAfter ≠ colonBefore ∧
      afterFirst.credit (.still .epoch) "a" "b:c" .hundred ⟨default, .hundred⟩ =
        .error (.store (.duplicateKey "revenue_entries" (colonBefore.entryId 0))) := by
  have hamount : Decimal.zero < Decimal.hundred := by decide
  have hnone := clashes_afterFirst.1
  have hfirst : afterFirst.generation colonAfter = 0 := by
    rw [opens_firstCredit.2.generation_eq]
    decide
  have hid : colonAfter.entryId (afterFirst.generation colonAfter) = colonBefore.entryId 0 :=
    Account.entryId_eq_iff.mpr ⟨by decide, rfl, hfirst⟩
  refine ⟨kept_afterFirst, hamount, hnone, by decide, ?_⟩
  rw [credit_of_none hamount hnone, ← hid]
  exact kept_afterFirst.numbered.openEntry_of_clashes clashes_afterFirst _

end Ledgers

end ChainLedger
