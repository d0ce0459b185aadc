import ChainLedger.Proofs.Ledger.Closing
import ChainLedger.Proofs.Transition.Revenue

/-!
# What a claim pays out

A claim that goes through closes the accounts that the first item of its
currency covers, and what they held is what this item asks for, by value
(`Pays`). Then it marks items of its request: not that one alone, but every
item of the currency (`items_apply`).

A marked item is backed by the ledger if all that it covers was closed and
what was closed adds up to what the marked items ask for (`Backs`). That
holds where no two items of a request are of one currency
(`backs_apply`).
-/

namespace ChainLedger

/-- The accounts of a beneficiary that an item covers. -/
def WithdrawalItem.accounts (beneficiary : String) (i : WithdrawalItem) : List Account :=
  i.offeringIds.map fun offering => ⟨beneficiary, offering, i.currency⟩

namespace RevenueClaim

variable {p : RevenueClaim} {l l' : Ledgers} {clock : Clock} {txHash beneficiary : String}
  {offeringIds : List String} {total total' held : Decimal} {fx : List Effect}

/-! ## Closing the accounts of an item -/

theorem shuts_closeAll (h : p.closeAll clock beneficiary offeringIds total l = .ok (held, l')) :
    Ledgers.Shuts (offeringIds.map fun k => ⟨beneficiary, k, p.currency⟩) l l' := by
  induction offeringIds generalizing clock total l with
  | nil =>
    cases h
    exact .nil
  | cons offering rest ih =>
    simp only [closeAll, bind_eq_ok, Prod.exists] at h
    obtain ⟨closed, l₁, hmark, sum, -, hrest⟩ := h
    exact .cons (Ledgers.shuts_markWithdrawn hmark) (ih hrest)

/-- **What is closed is all that the accounts held**, each of them counted
once. -/
theorem held_closeAll (h : p.closeAll clock beneficiary offeringIds total l = .ok (held, l'))
    (ht : Decimal.Alike total total') :
    ∃ held', (offeringIds.map fun k => ⟨beneficiary, k, p.currency⟩).eraseDups.foldlM
        (fun sum a => (l.heldIn a).bind sum.add?) total' = some held' ∧
      Decimal.Alike held held' := by
  induction offeringIds generalizing clock total total' l with
  | nil =>
    cases h
    exact ⟨total', rfl, ht⟩
  | cons offering rest ih =>
    simp only [closeAll, bind_eq_ok, orOverflow_eq_ok, Prod.exists] at h
    obtain ⟨closed, l₁, hmark, sum, hsum, hrest⟩ := h
    obtain ⟨sum', hsum', halike⟩ := ht.add? hsum
    obtain ⟨held₁, hheld₁, halike₁⟩ := ih hrest halike
    rw [List.map_cons, List.eraseDups_cons, eraseDups_filter, List.foldlM_cons,
      Ledgers.heldIn_of_markWithdrawn hmark, Option.bind_some, hsum', Option.bind_eq_bind,
      Option.bind_some, List.foldlM_filter]
    have hstep : ∀ (a : Account) (t t' z : Decimal), Decimal.Alike t t' →
        (l₁.heldIn a).bind t.add? = some z →
        ∃ z', (if !a == ⟨beneficiary, offering, p.currency⟩ then
          (l.heldIn a).bind t'.add? else some t') = some z' ∧ Decimal.Alike z z' := by
      intro a t t' z ht' hz
      rw [Ledgers.heldIn_markWithdrawn hmark] at hz
      by_cases ha : a = ⟨beneficiary, offering, p.currency⟩
      · -- Named once more, the account is closed already and adds a zero.
        rw [if_pos ha, Option.bind_some] at hz
        rw [if_neg (by simp [ha])]
        exact ⟨t', rfl, (Decimal.alike_of_add?_zero hz).trans ht'⟩
      · rw [if_neg ha] at hz
        rw [if_pos (by simp [ha])]
        obtain ⟨b, hb, hz⟩ := Option.bind_eq_some_iff.mp hz
        rw [hb]
        exact ht'.add? hz
    obtain ⟨held₂, hheld₂, halike₂⟩ := Decimal.Alike.foldlM hstep (.refl sum') hheld₁
    exact ⟨held₂, hheld₂, halike₁.trans halike₂⟩

/-! ## What the claim asks for -/

/-- **A claim that goes through** closes the accounts that its item covers,
and they held what the item asks for. -/
theorem of_apply_closes (h : p.apply txHash clock l = .ok (l', fx)) :
    ∃ request item, p.claimable l = .ok (request, item) ∧
      Ledgers.Shuts (item.accounts request.beneficiaryId) l l' ∧
      ∃ held, l.heldInAll (item.accounts request.beneficiaryId) = some held ∧
        held.toRat = item.amount.toRat := by
  obtain ⟨request, item, held, closed, _, hclaimable, hclosed, hheld, -, rfl, -⟩ := of_apply h
  obtain ⟨-, -, hitem, -⟩ := of_claimable hclaimable
  have hcurrency : item.currency = p.currency := by simpa using List.find?_some hitem
  obtain ⟨held', hheld', halike⟩ := held_closeAll hclosed (.refl _)
  have haccounts : item.accounts request.beneficiaryId =
      item.offeringIds.map fun k => ⟨request.beneficiaryId, k, p.currency⟩ := by
    rw [WithdrawalItem.accounts, hcurrency]
  have hamount : held'.toRat = item.amount.toRat :=
    halike.toRat_eq.symm.trans (Decimal.sameValue_iff.mp hheld)
  have hshuts : Ledgers.Shuts (item.accounts request.beneficiaryId) l closed :=
    haccounts ▸ shuts_closeAll hclosed
  exact ⟨request, item, hclaimable, hshuts, held', haccounts ▸ hheld', hamount⟩

/-- **What a claim pays**: the open entries of the accounts that an item
covers are closed, no other entry changes, and their balances add up to what
the item asks for. -/
structure Pays (request : WithdrawalRequest) (item : WithdrawalItem) (l l' : Ledgers) : Prop where
  shuts : Ledgers.Shuts (item.accounts request.beneficiaryId) l l'
  sum : ∃ sum, ((item.accounts request.beneficiaryId).eraseDups.filterMap
      l.openBalance?).foldlM Decimal.add? .zero = some sum ∧ sum.toRat = item.amount.toRat

/-- **A claim pays the first item of its currency.** -/
theorem pays_apply (hs : l.SingleOpen) (h : p.apply txHash clock l = .ok (l', fx)) :
    ∃ request item, l.withdrawals.get? p.requestId = some request ∧
      request.items.find? (·.currency = p.currency) = some item ∧ Pays request item l l' := by
  obtain ⟨request, item, hclaimable, hshuts, held, hheld, hamount⟩ := of_apply_closes h
  obtain ⟨hrequest, -, hitem, -⟩ := of_claimable hclaimable
  obtain ⟨sum, hsum, halike⟩ := hs.sum_of_heldInAll hheld
  exact ⟨request, item, hrequest, hitem, hshuts, sum, hsum, halike.toRat_eq.symm.trans hamount⟩

/-! ## What the claim marks -/

/-- A claim marks every item of its currency. -/
theorem items_apply (h : p.apply txHash clock l = .ok (l', fx)) :
    ∃ request request', l.withdrawals.get? p.requestId = some request ∧
      l'.withdrawals.get? p.requestId = some request' ∧
      request'.items = markItems p.currency txHash request.items := by
  obtain ⟨request, item, held, closed, withdrawals, hclaimable, hclosed, -, hupdate, rfl, -⟩ :=
    of_apply h
  obtain ⟨hrequest, -⟩ := of_claimable hclaimable
  have hsame : closed.withdrawals = l.withdrawals := by rw [(follows_closeAll hclosed).2]
  obtain ⟨t, ht⟩ := Collection.get?_update_self hupdate (hsame ▸ hrequest)
  exact ⟨request, _, hrequest, ht, rfl⟩

/-- The items of a request with another hash than before. -/
def marked (before after : WithdrawalRequest) : List WithdrawalItem :=
  ((before.items.zip after.items).filter fun (i, j) => i.txHash ≠ j.txHash).map (·.1)

/-- **Items that are marked are backed**: the open entries of the accounts
that they cover are closed, no other entry is, and what was closed adds up to
what the marked items ask for. -/
structure Backs (request : WithdrawalRequest) (items : List WithdrawalItem) (l l' : Ledgers) :
    Prop where
  shuts : Ledgers.Shuts (items.flatMap (·.accounts request.beneficiaryId)) l l'
  total : ∃ total, l.heldInAll (items.flatMap (·.accounts request.beneficiaryId)) = some total ∧
    total.toRat = (items.map (·.amount.toRat)).sum

/-- Of items that are changed one by one, those with another hash. -/
theorem filter_zip_map (f : WithdrawalItem → WithdrawalItem) (items : List WithdrawalItem) :
    ((items.zip (items.map f)).filter fun (i, j) => i.txHash ≠ j.txHash).map (·.1) =
      items.filter fun i => i.txHash ≠ (f i).txHash := by
  induction items with
  | nil => rfl
  | cons i items ih =>
    simp only [List.map_cons, List.zip_cons_cons, List.filter_cons]
    split <;> simp only [List.map_cons, ih]

/-- **If one item is of the currency of a claim**, this one is marked. -/
theorem marked_eq {before after : WithdrawalRequest} {item : WithdrawalItem}
    (hafter : after.items = markItems p.currency txHash before.items)
    (hitem : before.items.find? (·.currency = p.currency) = some item) (hnone : item.txHash = none)
    (hone : (before.items.filter (·.currency = p.currency)).length ≤ 1) :
    marked before after = [item] := by
  have hfilter : before.items.filter (·.currency = p.currency) = [item] := by
    have hhead : (before.items.filter (·.currency = p.currency)).head? = some item := by
      rw [List.head?_filter, hitem]
    generalize before.items.filter (·.currency = p.currency) = is at hhead hone
    cases is with
    | nil => cases hhead
    | cons i is =>
      rw [List.length_cons] at hone
      have hnil : is = [] := List.length_eq_zero_iff.mp (by omega)
      rw [Option.some.inj hhead, hnil]
  rw [marked, hafter, markItems, filter_zip_map, ← hfilter]
  refine List.filter_congr fun i hi => ?_
  by_cases hc : i.currency = p.currency
  · have hi' : i ∈ before.items.filter (·.currency = p.currency) :=
      List.mem_filter.mpr ⟨hi, by simpa⟩
    rw [hfilter, List.mem_singleton] at hi'
    simp [hi' ▸ hc, hi', hnone]
  · simp [hc]

/-- **A claim of a currency that only one item is of** backs what it marks. -/
theorem backs_apply (h : p.apply txHash clock l = .ok (l', fx))
    (hone : ∀ request, l.withdrawals.get? p.requestId = some request →
      (request.items.filter (·.currency = p.currency)).length ≤ 1) :
    ∃ request request', l.withdrawals.get? p.requestId = some request ∧
      l'.withdrawals.get? p.requestId = some request' ∧
      Backs request (marked request request') l l' := by
  obtain ⟨request, item, hclaimable, hshuts, held, hheld, hamount⟩ := of_apply_closes h
  obtain ⟨hrequest, -, hitem, hnone⟩ := of_claimable hclaimable
  obtain ⟨_, request', hrequest₁, hrequest', hitems⟩ := items_apply h
  obtain rfl := Option.some.inj (hrequest.symm.trans hrequest₁)
  have hmarked := marked_eq hitems hitem hnone (hone request hrequest)
  refine ⟨request, request', hrequest, hrequest', ?_⟩
  rw [hmarked]
  exact ⟨by simpa using hshuts, held, by simpa using hheld, by simpa using hamount⟩

end RevenueClaim

end ChainLedger
