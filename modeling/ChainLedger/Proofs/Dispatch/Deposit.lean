import ChainLedger.Proofs.Decimal.Grid
import ChainLedger.Proofs.Dispatch.Settlement
import ChainLedger.Proofs.Ledger.Room

/-!
# Deposits that do not round

Deposits fit the ledgers (`Ledgers.Fits`) if each may be settled and all of
their numbers, with those that they are added to or drawn from, are on one
grid and far enough from its end. The first of them can be settled
(`Fits.exists_settle`) and is taken exactly (`Fits.took`), and the ledgers
are then such that the others fit (`Fits.rest`). What was taken is a matter
of exact sums (`Ledgers.Took`), so it does not depend on the order
(`Took.perm`), and it determines the ledgers up to watermarks and spellings of
decimals (`Took.sameByValue`).
-/

namespace ChainLedger

open Collection Settlement FundDeposit

variable {l l' l'' l₁ l₂ : Ledgers} {ds ds' : List Settlement} {d : Settlement} {s : Nat}
  {clock : Clock} {fx : List Effect} {p : Settlement → Bool}

/-! ## Exact sums -/

namespace Decimal

/-- The exact sum of some numbers. -/
def total (as : List Decimal) : Rat := (as.map toRat).sum

theorem total_append (as bs : List Decimal) : total (as ++ bs) = total as + total bs := by
  rw [total, List.map_append, List.sum_append, total, total]

theorem total_perm {as bs : List Decimal} (h : as.Perm bs) : total as = total bs :=
  (h.map toRat).sum_eq

/-- Numbers on a grid have their sum on it. -/
theorem onGrid_total {as : List Decimal} (h : ∀ a ∈ as, OnGrid s a.toRat) :
    OnGrid s (total as) := by
  induction as with
  | nil => exact .zero
  | cons a as ih =>
    rw [List.forall_mem_cons] at h
    rw [total, List.map_cons, List.sum_cons]
    exact h.1.add (ih h.2)

end Decimal

open Decimal

namespace Settlement

theorem amounts_append (p : Settlement → Bool) (ds ds' : List Settlement) :
    amounts p (ds ++ ds') = amounts p ds ++ amounts p ds' := by
  rw [amounts, List.filter_append, List.map_append, amounts, amounts]

theorem values_append (p : Settlement → Bool) (ds ds' : List Settlement) :
    values p (ds ++ ds') = values p ds ++ values p ds' := by
  rw [values, List.filter_append, List.map_append, values, values]

theorem amounts_perm (p : Settlement → Bool) (h : ds.Perm ds') :
    (amounts p ds).Perm (amounts p ds') :=
  (h.filter p).map _

theorem values_perm (p : Settlement → Bool) (h : ds.Perm ds') :
    (values p ds).Perm (values p ds') :=
  (h.filter p).map _

theorem onGrid_amounts (p : Settlement → Bool)
    (h : ∀ d ∈ ds, OnGrid s d.deposit.amount.toRat) : OnGrid s (total (amounts p ds)) := by
  refine onGrid_total fun a ha => ?_
  obtain ⟨d, hd, rfl⟩ := List.mem_map.mp ha
  exact h d (List.mem_of_mem_filter hd)

theorem onGrid_values (p : Settlement → Bool)
    (h : ∀ d ∈ ds, OnGrid s d.deposit.value.toRat) : OnGrid s (total (values p ds)) := by
  refine onGrid_total fun a ha => ?_
  obtain ⟨d, hd, rfl⟩ := List.mem_map.mp ha
  exact h d (List.mem_of_mem_filter hd)

/-- The amount of one settlement, if it is looked at. -/
theorem total_amounts_singleton :
    total (amounts p [d]) = if p d then d.deposit.amount.toRat else 0 := by
  by_cases hp : p d <;> simp [amounts, total, hp]

theorem total_values_singleton :
    total (values p [d]) = if p d then d.deposit.value.toRat else 0 := by
  by_cases hp : p d <;> simp [values, total, hp]

theorem total_amounts_cons :
    total (amounts p (d :: ds)) = total (amounts p [d]) + total (amounts p ds) := by
  rw [← List.singleton_append, amounts_append, total_append]

theorem total_values_cons :
    total (values p (d :: ds)) = total (values p [d]) + total (values p ds) := by
  rw [← List.singleton_append, values_append, total_append]

end Settlement

/-! ## What sales do to documents -/

/-- **What sales did to an offering**, exactly. -/
inductive Offering.Sold (amount value : Rat) (a : Offering) : Offering → Prop
  | intro (supply sold : Decimal) (t : Instant)
      (hsupply : supply.toRat = a.availableSupply.toRat - amount)
      (hsold : sold.toRat = a.soldValue.toRat + value) :
      Sold amount value a { a with availableSupply := supply, soldValue := sold, updatedAt := t }

/-- **What sales did to a fractional token**, exactly. -/
inductive Fnft.Sold (amount : Rat) (a : Fnft) : Fnft → Prop
  | intro (supply : Decimal) (t : Instant)
      (hsupply : supply.toRat = a.availableSupply.toRat - amount) :
      Sold amount a { a with availableSupply := supply, updatedAt := t }

/-- The same purchase, perhaps at another time. -/
def Purchase.SameByValue (a b : Purchase) : Prop :=
  ∃ t, b = { a with updatedAt := t }

/-- The same offering, perhaps with its balances in other spellings. -/
def Offering.SameByValue (a b : Offering) : Prop :=
  ∃ supply sold t, b = { a with availableSupply := supply, soldValue := sold, updatedAt := t } ∧
    supply.toRat = a.availableSupply.toRat ∧ sold.toRat = a.soldValue.toRat

/-- The same fractional token, perhaps with its balance in another spelling. -/
def Fnft.SameByValue (a b : Fnft) : Prop :=
  ∃ supply t, b = { a with availableSupply := supply, updatedAt := t } ∧
    supply.toRat = a.availableSupply.toRat

/-- The same record of what was bought, perhaps in other spellings. -/
def WhitelistEntry.SameByValue (a b : WhitelistEntry) : Prop :=
  ∃ purchased deposited t,
    b = { a with purchasedAmount := purchased, depositedValue := deposited, updatedAt := t } ∧
      purchased.toRat = a.purchasedAmount.toRat ∧ deposited.toRat = a.depositedValue.toRat

/-- **Ledgers that are equal in value**: the same but for watermarks and for
the spellings of the balances that deposits change. -/
structure Ledgers.SameByValue (l l' : Ledgers) : Prop where
  purchases : ∀ k, Option.Rel Purchase.SameByValue (l.purchases.get? k) (l'.purchases.get? k)
  offerings : ∀ k, Option.Rel Offering.SameByValue (l.offerings.get? k) (l'.offerings.get? k)
  fnfts : ∀ k, Option.Rel Fnft.SameByValue (l.fnfts.get? k) (l'.fnfts.get? k)
  whitelist : ∀ k, Option.Rel WhitelistEntry.SameByValue (l.whitelist.get? k) (l'.whitelist.get? k)
  rest : l' = { l with
    purchases := l'.purchases, offerings := l'.offerings, fnfts := l'.fnfts,
    whitelist := l'.whitelist }

section Sold

variable {x x' y y' : Rat}

theorem Offering.Sold.refl (a : Offering) : a.Sold 0 0 a :=
  .intro a.availableSupply a.soldValue a.updatedAt (sub_zero _).symm (add_zero _).symm

theorem Offering.Sold.trans {a b c : Offering} (h : a.Sold x y b) (h' : b.Sold x' y' c) :
    a.Sold (x + x') (y + y') c := by
  obtain ⟨_, _, _, hsupply, hsold⟩ := h
  obtain ⟨supply, sold, t, hsupply', hsold'⟩ := h'
  exact .intro supply sold t (by rw [hsupply', hsupply, sub_sub]) (by rw [hsold', hsold, add_assoc])

/-- Sales of the same amount and value come to the same. -/
theorem Offering.Sold.same {a b c : Offering} (h : a.Sold x y b) (h' : a.Sold x y c) :
    b.SameByValue c := by
  obtain ⟨_, _, _, hsupply, hsold⟩ := h
  obtain ⟨supply, sold, t, hsupply', hsold'⟩ := h'
  exact ⟨supply, sold, t, rfl, hsupply'.trans hsupply.symm, hsold'.trans hsold.symm⟩

theorem Fnft.Sold.refl (a : Fnft) : a.Sold 0 a :=
  .intro a.availableSupply a.updatedAt (sub_zero _).symm

theorem Fnft.Sold.trans {a b c : Fnft} (h : a.Sold x b) (h' : b.Sold x' c) :
    a.Sold (x + x') c := by
  obtain ⟨_, _, hsupply⟩ := h
  obtain ⟨supply, t, hsupply'⟩ := h'
  exact .intro supply t (by rw [hsupply', hsupply, sub_sub])

theorem Fnft.Sold.same {a b c : Fnft} (h : a.Sold x b) (h' : a.Sold x c) : b.SameByValue c := by
  obtain ⟨_, _, hsupply⟩ := h
  obtain ⟨supply, t, hsupply'⟩ := h'
  exact ⟨supply, t, rfl, hsupply'.trans hsupply.symm⟩

end Sold

/-! ## What was taken -/

/-- **Ledgers that took some deposits**, exactly. -/
structure Ledgers.Took (l : Ledgers) (ds : List Settlement) (l' : Ledgers) : Prop where
  /-- Each deposit is a purchase. -/
  purchases : ∀ d ∈ ds, ∃ t, l'.purchases.get? d.txHash = some (d.purchase t)
  /-- All other purchases are from before. -/
  others : ∀ k, k ∉ ds.map (·.txHash) → l'.purchases.get? k = l.purchases.get? k
  /-- Offerings: what is left, and what was sold. -/
  offerings : ∀ k, Option.Rel (Offering.Sold (total (amounts (isOf k) ds))
    (total (values (isOf k) ds))) (l.offerings.get? k) (l'.offerings.get? k)
  /-- Fractional tokens: what is left. -/
  fnfts : ∀ k, Option.Rel (Fnft.Sold (total (amounts (isOfFnft l k) ds)))
    (l.fnfts.get? k) (l'.fnfts.get? k)
  /-- Wallets with a record: those from before, and the buyers. -/
  recorded : ∀ offering wallet, l'.whitelist.contains (keyOf offering wallet) = true ↔
    l.whitelist.contains (keyOf offering wallet) = true ∨ ∃ d ∈ ds, isBy offering wallet d
  /-- What a wallet bought, as far as there is a record. -/
  bought : ∀ offering wallet,
    (bought l'.whitelist (keyOf offering wallet) (·.purchasedAmount)).toRat =
      (bought l.whitelist (keyOf offering wallet) (·.purchasedAmount)).toRat +
        total (amounts (isBy offering wallet) ds) ∧
    (bought l'.whitelist (keyOf offering wallet) (·.depositedValue)).toRat =
      (bought l.whitelist (keyOf offering wallet) (·.depositedValue)).toRat +
        total (values (isBy offering wallet) ds)
  /-- Nothing else changed. -/
  rest : l' = { l with
    purchases := l'.purchases, offerings := l'.offerings, fnfts := l'.fnfts,
    whitelist := l'.whitelist }

namespace Ledgers.Took

theorem refl (l : Ledgers) : l.Took [] l where
  purchases := nofun
  others _ _ := rfl
  offerings _ := .self fun _ _ => .refl _
  fnfts _ := .self fun _ _ => .refl _
  recorded _ _ := by simp
  bought _ _ := ⟨(add_zero _).symm, (add_zero _).symm⟩
  rest := rfl

/-- Offerings name the same fractional tokens as before. -/
theorem isOfFnft_eq (h : l.Took ds l') (k : String) : isOfFnft l' k = isOfFnft l k := by
  funext d
  have hrel := h.offerings d.deposit.offeringId
  unfold isOfFnft
  generalize l.offerings.get? d.deposit.offeringId = x,
    l'.offerings.get? d.deposit.offeringId = y at hrel
  cases hrel with
  | none => rfl
  | some hsold => cases hsold; rfl

/-- **One after the other**, if the later ones have hashes of their own. -/
theorem trans (h : l.Took ds l') (h' : l'.Took ds' l'')
    (hdisjoint : ∀ d ∈ ds, d.txHash ∉ ds'.map (·.txHash)) : l.Took (ds ++ ds') l'' where
  purchases d hd := by
    rcases List.mem_append.mp hd with hd | hd
    · rw [h'.others d.txHash (hdisjoint d hd)]
      exact h.purchases d hd
    · exact h'.purchases d hd
  others k hk := by
    rw [List.map_append, List.mem_append, not_or] at hk
    rw [h'.others k hk.2, h.others k hk.1]
  offerings k := by
    rw [amounts_append, values_append, total_append, total_append]
    exact (h.offerings k).comp (h'.offerings k) fun _ _ _ => .trans
  fnfts k := by
    rw [amounts_append, total_append]
    exact (h.fnfts k).comp (h.isOfFnft_eq k ▸ h'.fnfts k) fun _ _ _ => .trans
  recorded offering wallet := by
    rw [h'.recorded, h.recorded]
    simp only [List.mem_append, or_and_right, exists_or, or_assoc]
  bought offering wallet := by
    rw [amounts_append, values_append, total_append, total_append, ← add_assoc, ← add_assoc,
      ← (h.bought offering wallet).1, ← (h.bought offering wallet).2]
    exact h'.bought offering wallet
  rest := by
    refine h'.rest.trans ?_
    rw [h.rest]

/-- **The order does not matter** to what was taken. -/
theorem perm (h : l.Took ds l') (hperm : ds.Perm ds') : l.Took ds' l' where
  purchases d hd := h.purchases d (hperm.mem_iff.mpr hd)
  others k hk := h.others k fun hmem => hk ((hperm.map _).mem_iff.mp hmem)
  offerings k := by
    rw [← total_perm (amounts_perm _ hperm), ← total_perm (values_perm _ hperm)]
    exact h.offerings k
  fnfts k := by
    rw [← total_perm (amounts_perm _ hperm)]
    exact h.fnfts k
  recorded offering wallet := by
    simp only [← hperm.mem_iff]
    exact h.recorded offering wallet
  bought offering wallet := by
    rw [← total_perm (amounts_perm _ hperm), ← total_perm (values_perm _ hperm)]
    exact h.bought offering wallet
  rest := h.rest

/-- A record that there is after some deposits is there after the same
deposits in another run. -/
theorem exists_record (h : l.Took ds l₁) (h' : l.Took ds l₂) (hl₁ : l₁.Keyed) (hl₂ : l₂.Keyed)
    {k : String} {w : WhitelistEntry} (hw : l₁.whitelist.get? k = some w) :
    ∃ w', l₂.whitelist.get? k = some w' ∧ w.SameByValue w' := by
  obtain rfl : keyOf w.offeringId w.wallet = k := hl₁.whitelist k w hw
  have hthere : l₂.whitelist.contains (keyOf w.offeringId w.wallet) = true := by
    rw [h'.recorded, ← h.recorded]
    exact contains_iff.mpr ⟨w, hw⟩
  obtain ⟨w', hw'⟩ := contains_iff.mp hthere
  obtain ⟨hoffering, hwallet⟩ := keyOf_inj (hl₂.whitelist _ w' hw')
  obtain ⟨hpurchased, hdeposited⟩ := h.bought w.offeringId w.wallet
  obtain ⟨hpurchased', hdeposited'⟩ := h'.bought w.offeringId w.wallet
  rw [bought_of_get? hw] at hpurchased hdeposited
  rw [bought_of_get? hw'] at hpurchased' hdeposited'
  refine ⟨w', hw', w'.purchasedAmount, w'.depositedValue, w'.updatedAt, ?_,
    hpurchased'.trans hpurchased.symm, hdeposited'.trans hdeposited.symm⟩
  rw [← hoffering, ← hwallet]

/-- **What was taken determines the ledgers**, up to values. -/
theorem sameByValue (h : l.Took ds l₁) (h' : l.Took ds l₂) (hl₁ : l₁.Keyed) (hl₂ : l₂.Keyed) :
    l₁.SameByValue l₂ where
  purchases k := by
    by_cases hk : k ∈ ds.map (·.txHash)
    · obtain ⟨d, hd, rfl⟩ := List.mem_map.mp hk
      obtain ⟨t, ht⟩ := h.purchases d hd
      obtain ⟨t', ht'⟩ := h'.purchases d hd
      rw [ht, ht']
      exact .some ⟨t', rfl⟩
    · rw [h.others k hk, h'.others k hk]
      exact .self fun a _ => ⟨a.updatedAt, rfl⟩
  offerings k := (h.offerings k).span (h'.offerings k) fun _ _ _ => Offering.Sold.same
  fnfts k := (h.fnfts k).span (h'.fnfts k) fun _ _ _ => Fnft.Sold.same
  whitelist k := by
    cases hw : l₁.whitelist.get? k with
    | some w =>
      obtain ⟨w', hw', hsame⟩ := h.exists_record h' hl₁ hl₂ hw
      rw [hw']
      exact .some hsame
    | none =>
      cases hw' : l₂.whitelist.get? k with
      | none => exact .none
      | some w' =>
        obtain ⟨_, hthere, -⟩ := h'.exists_record h hl₂ hl₁ hw'
        rw [hw] at hthere
        cases hthere
  rest := by
    refine h'.rest.trans ?_
    rw [h.rest]

end Ledgers.Took

/-! ## Settling goes through -/

namespace FundDeposit

variable {p : FundDeposit} {txHash : String} {rest purchased deposited : Decimal}

theorem offeringRest_of_sub? {o : Offering} (h : o.availableSupply.sub? p.amount = some rest)
    (hneg : ¬ rest < .zero) : p.offeringRest txHash o = .ok rest := by
  rw [offeringRest, trapped_eq_ok.mpr (sub_eq_ok.mpr h), ok_bind, require_bind_of hneg]
  rfl

theorem fnftRest_of_sub? {id : String} {f : Fnft} (h : f.availableSupply.sub? p.amount = some rest)
    (hneg : ¬ rest < .zero) : p.fnftRest txHash id f = .ok rest := by
  rw [fnftRest, trapped_eq_ok.mpr (sub_eq_ok.mpr h), ok_bind, require_bind_of hneg]
  rfl

/-- There are totals if the amount and the value can be added to what was
bought. -/
theorem exists_totals_of_add?
    (h : (bought l.whitelist p.whitelistKey (·.purchasedAmount)).add? p.amount = some purchased)
    (h' : (bought l.whitelist p.whitelistKey (·.depositedValue)).add? p.value = some deposited) :
    ∃ totals, p.totals l = .ok totals := by
  unfold totals
  cases hget : l.whitelist.get? p.whitelistKey with
  | none => exact ⟨_, rfl⟩
  | some w =>
    rw [bought_of_get? hget] at h h'
    exact ⟨(purchased, deposited), by simp only [h, h']⟩

/-- What a buyer bought can be written if its record, or the clock when there
is none, has a microsecond left. -/
theorem exists_record {w : Collection WhitelistEntry} (hclock : clock.HasRoom 1)
    (hroom : ∀ a, w.get? p.whitelistKey = some a → 0 < a.updatedAt.room) :
    ∃ w', p.record clock purchased deposited w = .ok w' := by
  unfold record
  split
  · next hthere =>
    obtain ⟨a, ha⟩ := contains_iff.mp hthere
    exact exists_update ha (hroom a ha)
  · next hfree => exact exists_insert (not_contains_iff.mp hfree) (hclock 0 p.whitelistKey)

/-- A record that is written leaves room as every write does. -/
theorem hasRoomAt_record {w w' : Collection WhitelistEntry} {k : String} {n : Nat}
    (hw : w.HasRoomAt (n + 1) k) (h : p.record clock purchased deposited w = .ok w')
    (hclock : clock.HasRoom (n + 1)) : w'.HasRoomAt n k := by
  have hlater : clock.HasRoom n := hclock.mono (Nat.le_succ n)
  unfold FundDeposit.record at h
  split at h
  · exact hw.update h (fun _ => rfl) (hlater 0 _)
  · exact (hw.mono (Nat.le_succ n)).insert h (hclock 0 p.whitelistKey) (hlater 1 _)

/-- What a deposit finds and writes is all that it takes to settle it. -/
theorem settle_of_settling (x : Settling p txHash clock l) :
    p.settle txHash clock l = .ok (x.after, [p.notice x.offeringRest]) := by
  unfold settle
  rw [require_bind_of (not_contains_iff.mpr x.fresh), x.offering_found, orRefuse_some_bind,
    require_bind_of x.onChain, x.offering_drawn, ok_bind, x.fnft_found, orRefuse_some_bind,
    x.fnft_drawn, ok_bind, orOverflow_eq_ok.mpr x.sold, ok_bind, x.totals, ok_bind]
  dsimp only
  rw [x.purchase_inserted, ok_bind, x.offering_updated, ok_bind, x.fnft_updated, ok_bind,
    x.recorded, ok_bind]
  rfl

end FundDeposit

/-! ## Deposits that fit -/

/-- **Deposits that fit the ledgers.** Each could be settled by itself: its
hash was not seen, its amount is positive, and its offering is on its chain
and has a fractional token. And they could be settled together: their amounts
and values and the balances of the ledgers that they go to are on one grid,
what is available covers what is drawn from it, and what was sold and bought
stays below the end of the grid. -/
structure Ledgers.Fits (s : Nat) (l : Ledgers) (ds : List Settlement) : Prop where
  scale : s ≤ maxScale
  hashes : (ds.map (·.txHash)).Nodup
  fresh : ∀ d ∈ ds, l.purchases.get? d.txHash = none
  positive : ∀ d ∈ ds, ¬ d.deposit.amount ≤ .zero
  onGrid : ∀ d ∈ ds, OnGrid s d.deposit.amount.toRat ∧ OnGrid s d.deposit.value.toRat
  found : ∀ d ∈ ds, ∃ o, l.offerings.get? d.deposit.offeringId = some o ∧
    o.onChainStatus = .onChain ∧ ∃ f, l.fnfts.get? o.fnftId = some f
  offerings : ∀ d ∈ ds, ∀ o, l.offerings.get? d.deposit.offeringId = some o →
    Covers s o.availableSupply (total (amounts (isOf d.deposit.offeringId) ds)) ∧
      TakesUp s o.soldValue (total (values (isOf d.deposit.offeringId) ds))
  fnfts : ∀ d ∈ ds, ∀ k f, isOfFnft l k d → l.fnfts.get? k = some f →
    Covers s f.availableSupply (total (amounts (isOfFnft l k) ds))
  whitelist : ∀ d ∈ ds,
    TakesUp s (bought l.whitelist d.deposit.whitelistKey (·.purchasedAmount))
        (total (amounts (isBy d.deposit.offeringId d.deposit.buyer) ds)) ∧
      TakesUp s (bought l.whitelist d.deposit.whitelistKey (·.depositedValue))
        (total (values (isBy d.deposit.offeringId d.deposit.buyer) ds))

/-- **The documents that deposits write could be written** as often as there
are deposits. -/
structure Ledgers.RoomFor (l : Ledgers) (ds : List Settlement) : Prop where
  offerings : ∀ d ∈ ds, l.offerings.HasRoomAt ds.length d.deposit.offeringId
  fnfts : ∀ d ∈ ds, ∀ k, isOfFnft l k d → l.fnfts.HasRoomAt ds.length k
  whitelist : ∀ d ∈ ds, l.whitelist.HasRoomAt ds.length d.deposit.whitelistKey

theorem Ledgers.RoomFor.perm (h : l.RoomFor ds) (hperm : ds.Perm ds') : l.RoomFor ds' where
  offerings d hd := hperm.length_eq ▸ h.offerings d (hperm.mem_iff.mpr hd)
  fnfts d hd := hperm.length_eq ▸ h.fnfts d (hperm.mem_iff.mpr hd)
  whitelist d hd := hperm.length_eq ▸ h.whitelist d (hperm.mem_iff.mpr hd)

/-- **What the others write has room for them** after the first deposit. -/
theorem Ledgers.RoomFor.rest (h : l.RoomFor (d :: ds)) (hclock : clock.HasRoom (d :: ds).length)
    (hsettle : d.deposit.settle d.txHash clock l = .ok (l', fx)) (htook : l.Took [d] l') :
    l'.RoomFor ds := by
  obtain ⟨x, rfl, -⟩ := of_settle hsettle
  have hlater : clock.HasRoom ds.length := hclock.mono (Nat.le_succ _)
  constructor
  case offerings =>
    intro e he
    exact (h.offerings e (.tail _ he)).update x.offering_updated (fun _ => rfl) (hlater 2 _)
  case fnfts =>
    intro e he k hk
    rw [htook.isOfFnft_eq] at hk
    exact (h.fnfts e (.tail _ he) k hk).update x.fnft_updated (fun _ => rfl) (hlater 3 _)
  case whitelist =>
    intro e he
    exact hasRoomAt_record (h.whitelist e (.tail _ he)) x.recorded (hclock.later 4)

namespace Ledgers.Fits

theorem perm (h : l.Fits s ds) (hperm : ds.Perm ds') : l.Fits s ds' where
  scale := h.scale
  hashes := (hperm.map _).nodup_iff.mp h.hashes
  fresh d hd := h.fresh d (hperm.mem_iff.mpr hd)
  positive d hd := h.positive d (hperm.mem_iff.mpr hd)
  onGrid d hd := h.onGrid d (hperm.mem_iff.mpr hd)
  found d hd := h.found d (hperm.mem_iff.mpr hd)
  offerings d hd o ho := by
    rw [← total_perm (amounts_perm _ hperm), ← total_perm (values_perm _ hperm)]
    exact h.offerings d (hperm.mem_iff.mpr hd) o ho
  fnfts d hd k f hk hf := by
    rw [← total_perm (amounts_perm _ hperm)]
    exact h.fnfts d (hperm.mem_iff.mpr hd) k f hk hf
  whitelist d hd := by
    rw [← total_perm (amounts_perm _ hperm), ← total_perm (values_perm _ hperm)]
    exact h.whitelist d (hperm.mem_iff.mpr hd)

/-- **What was taken leaves ledgers that the others fit.** -/
theorem rest (h : l.Fits s (ds ++ ds')) (htook : l.Took ds l') : l'.Fits s ds' := by
  have hmem {d : Settlement} (hd : d ∈ ds') : d ∈ ds ++ ds' := List.mem_append_right ds hd
  have hnodup := h.hashes
  rw [List.map_append] at hnodup
  -- The sums of the parts are on the grid as those of the whole are.
  have hgrid (p : Settlement → Bool) : OnGrid s (total (amounts p ds)) ∧
      OnGrid s (total (values p ds)) ∧ 0 ≤ total (amounts p ds') :=
    ⟨onGrid_amounts p fun d hd => (h.onGrid d (List.mem_append_left ds' hd)).1,
      onGrid_values p fun d hd => (h.onGrid d (List.mem_append_left ds' hd)).2,
      (onGrid_amounts p fun d hd => (h.onGrid d (hmem hd)).1).nonneg⟩
  constructor
  case scale => exact h.scale
  case hashes => exact hnodup.of_append_right
  case positive => exact fun d hd => h.positive d (hmem hd)
  case onGrid => exact fun d hd => h.onGrid d (hmem hd)
  case fresh =>
    intro d hd
    rw [htook.others]
    · exact h.fresh d (hmem hd)
    · exact fun hold => (List.disjoint_of_nodup_append hnodup) hold (List.mem_map_of_mem hd)
  case found =>
    intro d hd
    obtain ⟨o, ho, hchain, f, hf⟩ := h.found d (hmem hd)
    obtain ⟨o', ho', hsold⟩ := (ho ▸ htook.offerings d.deposit.offeringId).of_some
    obtain ⟨f', hf', -⟩ := (hf ▸ htook.fnfts o.fnftId).of_some
    cases hsold
    exact ⟨_, ho', hchain, f', hf'⟩
  case offerings =>
    intro d hd o' ho'
    obtain ⟨o, ho, hsold⟩ := (ho' ▸ htook.offerings d.deposit.offeringId).to_some
    obtain ⟨hcovers, htakes⟩ := h.offerings d (hmem hd) o ho
    rw [amounts_append, total_append] at hcovers
    rw [values_append, total_append] at htakes
    obtain ⟨hamounts, hvalues, hnonneg⟩ := hgrid (isOf d.deposit.offeringId)
    obtain ⟨supply, sold, t, hsupply, hsold⟩ := hsold
    exact ⟨hcovers.rest hsupply hamounts hnonneg, htakes.rest hsold hvalues⟩
  case fnfts =>
    intro d hd k f' hk hf'
    rw [htook.isOfFnft_eq] at hk ⊢
    obtain ⟨f, hf, hsold⟩ := (hf' ▸ htook.fnfts k).to_some
    have hcovers := h.fnfts d (hmem hd) k f hk hf
    rw [amounts_append, total_append] at hcovers
    obtain ⟨hamounts, -, hnonneg⟩ := hgrid (isOfFnft l k)
    obtain ⟨supply, t, hsupply⟩ := hsold
    exact hcovers.rest hsupply hamounts hnonneg
  case whitelist =>
    intro d hd
    obtain ⟨hamount, hvalue⟩ := h.whitelist d (hmem hd)
    rw [amounts_append, total_append] at hamount
    rw [values_append, total_append] at hvalue
    obtain ⟨hbought, hdeposited⟩ := htook.bought d.deposit.offeringId d.deposit.buyer
    obtain ⟨hamounts, hvalues, -⟩ := hgrid (isBy d.deposit.offeringId d.deposit.buyer)
    exact ⟨hamount.rest hbought hamounts, hvalue.rest hdeposited hvalues⟩

/-! ## The first deposit -/

section First

variable (h : l.Fits s (d :: ds))

include h

/-- Sums over the others are no less than zero. -/
theorem rest_nonneg (p : Settlement → Bool) :
    0 ≤ total (amounts p ds) ∧ 0 ≤ total (values p ds) := by
  have hgrid := fun e he => h.onGrid e (List.mem_cons_of_mem d he)
  exact ⟨(onGrid_amounts p fun e he => (hgrid e he).1).nonneg,
    (onGrid_values p fun e he => (hgrid e he).2).nonneg⟩

/-- The first deposit is drawn from its offering, exactly. -/
theorem exists_offeringRest {o : Offering} (ho : l.offerings.get? d.deposit.offeringId = some o) :
    ∃ r, o.availableSupply.sub? d.deposit.amount = some r ∧
      r.toRat = o.availableSupply.toRat - d.deposit.amount.toRat ∧ ¬ r < .zero := by
  obtain ⟨hcovers, -⟩ := h.offerings d (.head _) o ho
  rw [total_amounts_cons, total_amounts_singleton, if_pos (by simp [isOf])] at hcovers
  exact hcovers.exists_sub? h.scale (h.onGrid d (.head _)).1 (h.rest_nonneg _).1

/-- Its value is added to what was sold, exactly. -/
theorem exists_soldValue {o : Offering} (ho : l.offerings.get? d.deposit.offeringId = some o) :
    ∃ r, o.soldValue.add? d.deposit.value = some r ∧
      r.toRat = o.soldValue.toRat + d.deposit.value.toRat := by
  obtain ⟨-, htakes⟩ := h.offerings d (.head _) o ho
  rw [total_values_cons, total_values_singleton, if_pos (by simp [isOf])] at htakes
  exact htakes.exists_add? h.scale (h.onGrid d (.head _)).2 (h.rest_nonneg _).2

/-- It is drawn from its fractional token, exactly. -/
theorem exists_fnftRest {o : Offering} {f : Fnft}
    (ho : l.offerings.get? d.deposit.offeringId = some o) (hf : l.fnfts.get? o.fnftId = some f) :
    ∃ r, f.availableSupply.sub? d.deposit.amount = some r ∧
      r.toRat = f.availableSupply.toRat - d.deposit.amount.toRat ∧ ¬ r < .zero := by
  have hof : isOfFnft l o.fnftId d = true := by simp [isOfFnft, ho]
  have hcovers := h.fnfts d (.head _) o.fnftId f hof hf
  rw [total_amounts_cons, total_amounts_singleton, if_pos hof] at hcovers
  exact hcovers.exists_sub? h.scale (h.onGrid d (.head _)).1 (h.rest_nonneg _).1

/-- It is added to what its buyer bought, exactly. -/
theorem exists_totals :
    (∃ r, (bought l.whitelist d.deposit.whitelistKey (·.purchasedAmount)).add? d.deposit.amount =
        some r ∧
      r.toRat = (bought l.whitelist d.deposit.whitelistKey (·.purchasedAmount)).toRat +
        d.deposit.amount.toRat) ∧
    ∃ r, (bought l.whitelist d.deposit.whitelistKey (·.depositedValue)).add? d.deposit.value =
        some r ∧
      r.toRat = (bought l.whitelist d.deposit.whitelistKey (·.depositedValue)).toRat +
        d.deposit.value.toRat := by
  obtain ⟨hamount, hvalue⟩ := h.whitelist d (.head _)
  rw [total_amounts_cons, total_amounts_singleton, if_pos (by simp [isBy])] at hamount
  rw [total_values_cons, total_values_singleton, if_pos (by simp [isBy])] at hvalue
  exact ⟨hamount.exists_add? h.scale (h.onGrid d (.head _)).1 (h.rest_nonneg _).1,
    hvalue.exists_add? h.scale (h.onGrid d (.head _)).2 (h.rest_nonneg _).2⟩

/-- **The first deposit can be settled** as long as the clock and the documents
have a microsecond left. -/
theorem exists_settle (hroom : l.RoomFor (d :: ds)) (hclock : clock.HasRoom 1) :
    ∃ l' fx, d.deposit.settle d.txHash clock l = .ok (l', fx) := by
  obtain ⟨o, ho, hchain, f, hf⟩ := h.found d (.head _)
  obtain ⟨rest, hrest, -, hneg⟩ := h.exists_offeringRest ho
  obtain ⟨fnftRest, hfnftRest, -, hfnftNeg⟩ := h.exists_fnftRest ho hf
  obtain ⟨soldValue, hsold, -⟩ := h.exists_soldValue ho
  obtain ⟨⟨purchased, hpurchased, -⟩, deposited, hdeposited, -⟩ := h.exists_totals
  have hfresh := h.fresh d (.head _)
  have hpos : 0 < (d :: ds).length := Nat.succ_pos _
  obtain ⟨purchases, hpurchases⟩ : ∃ c, l.purchases.insert (clock 1) ⟨d.txHash,
      d.deposit.offeringId, d.deposit.buyer, d.deposit.amount, d.deposit.value,
      clock 0 d.txHash⟩ = .ok c :=
    exists_insert hfresh (hclock 0 d.txHash)
  obtain ⟨offerings, hofferings⟩ : ∃ c, l.offerings.update (clock 2) d.deposit.offeringId (fun o =>
      { o with availableSupply := rest, soldValue := soldValue }) = .ok c :=
    exists_update ho (hpos.trans_le (hroom.offerings d (.head _) o ho))
  obtain ⟨fnfts, hfnfts⟩ : ∃ c, l.fnfts.update (clock 3) o.fnftId (fun f =>
      { f with availableSupply := fnftRest }) = .ok c :=
    exists_update hf
      (hpos.trans_le (hroom.fnfts d (.head _) o.fnftId (by simp [isOfFnft, ho]) f hf))
  obtain ⟨⟨purchased, deposited⟩, htotals⟩ := exists_totals_of_add? hpurchased hdeposited
  obtain ⟨whitelist, hwhitelist⟩ := exists_record (hclock.later 4)
    fun w hw => hpos.trans_le (hroom.whitelist d (.head _) w hw)
  exact ⟨_, _, settle_of_settling ⟨o, f, rest, fnftRest, soldValue, purchased, deposited, purchases,
    offerings, fnfts, whitelist, hfresh, ho, hchain, hf, offeringRest_of_sub? hrest hneg,
    fnftRest_of_sub? hfnftRest hfnftNeg, hsold, htotals, hpurchases, hofferings, hfnfts,
    hwhitelist⟩⟩

/-- The first deposit sells of its offering and of no other. -/
theorem sold_offerings (x : Settling d.deposit d.txHash clock l) (k : String) :
    Option.Rel (Offering.Sold (total (amounts (isOf k) [d])) (total (values (isOf k) [d])))
      (l.offerings.get? k) (x.offerings.get? k) := by
  refine (rel_update x.offering_updated k).imp fun a b ha hab => ?_
  rw [total_amounts_singleton, total_values_singleton]
  by_cases hk : d.deposit.offeringId = k
  · have hof : isOf k d = true := decide_eq_true hk
    rw [if_pos hk] at hab
    obtain ⟨t, -, rfl⟩ := hab
    obtain rfl := Option.some.inj (x.offering_found.symm.trans (hk ▸ ha))
    obtain ⟨rest, hrest, hexact, -⟩ := h.exists_offeringRest x.offering_found
    obtain ⟨sold, hsold, hexact'⟩ := h.exists_soldValue x.offering_found
    obtain rfl := Option.some.inj (hrest.symm.trans (of_offeringRest x.offering_drawn).1)
    obtain rfl := Option.some.inj (hsold.symm.trans x.sold)
    rw [if_pos hof, if_pos hof]
    exact .intro _ _ t hexact hexact'
  · have hof : ¬ isOf k d = true := fun hof => hk (of_decide_eq_true hof)
    rw [if_neg hk] at hab
    rw [if_neg hof, if_neg hof, hab]
    exact .refl a

/-- It sells of the fractional token of its offering and of no other. -/
theorem sold_fnfts (x : Settling d.deposit d.txHash clock l) (k : String) :
    Option.Rel (Fnft.Sold (total (amounts (isOfFnft l k) [d])))
      (l.fnfts.get? k) (x.fnfts.get? k) := by
  have hof : isOfFnft l k d = true ↔ x.offering.fnftId = k := by
    simp [isOfFnft, x.offering_found]
  refine (rel_update x.fnft_updated k).imp fun a b ha hab => ?_
  rw [total_amounts_singleton]
  by_cases hk : x.offering.fnftId = k
  · rw [if_pos hk] at hab
    obtain ⟨t, -, rfl⟩ := hab
    obtain rfl := Option.some.inj (x.fnft_found.symm.trans (hk ▸ ha))
    obtain ⟨rest, hrest, hexact, -⟩ := h.exists_fnftRest x.offering_found x.fnft_found
    obtain rfl := Option.some.inj (hrest.symm.trans (of_fnftRest x.fnft_drawn).1)
    rw [if_pos (hof.mpr hk)]
    exact .intro _ t hexact
  · rw [if_neg hk] at hab
    rw [if_neg (hof.not.mpr hk), hab]
    exact .refl a

/-- **The first deposit is taken exactly** when it is settled. -/
theorem took (hsettle : d.deposit.settle d.txHash clock l = .ok (l', fx)) : l.Took [d] l' := by
  obtain ⟨hfree, t, hpurchases⟩ := purchases_settle hsettle
  obtain ⟨⟨w, hw, hpurchased, hdeposited⟩, hothers⟩ := whitelist_settle hsettle
  obtain ⟨x, rfl, -⟩ := of_settle hsettle
  constructor
  case offerings => exact h.sold_offerings x
  case fnfts => exact h.sold_fnfts x
  case rest => rfl
  case purchases =>
    intro e he
    rw [List.mem_singleton.mp he]
    exact ⟨t, (hpurchases _).trans (if_pos rfl)⟩
  case others =>
    intro k hk
    rw [hpurchases, if_neg fun heq => hk (List.mem_singleton.mpr heq)]
  case recorded =>
    intro offering wallet
    simp only [List.mem_singleton, exists_eq_left, isBy_iff]
    by_cases hk : keyOf offering wallet = d.deposit.whitelistKey
    · have hthere : x.after.whitelist.contains (keyOf offering wallet) = true :=
        contains_iff.mpr ⟨w, hk ▸ hw⟩
      exact ⟨fun _ => .inr hk, fun _ => hthere⟩
    · rw [Collection.contains, hothers _ hk, ← Collection.contains]
      exact ⟨.inl, fun hor => hor.resolve_right hk⟩
  case bought =>
    intro offering wallet
    rw [total_amounts_singleton, total_values_singleton]
    by_cases hk : keyOf offering wallet = d.deposit.whitelistKey
    · obtain ⟨⟨u, hu, hexact⟩, v, hv, hexact'⟩ := h.exists_totals
      obtain rfl := Option.some.inj (hu.symm.trans hpurchased)
      obtain rfl := Option.some.inj (hv.symm.trans hdeposited)
      rw [if_pos (isBy_iff.mpr hk), if_pos (isBy_iff.mpr hk), hk, bought_of_get? hw,
        bought_of_get? hw]
      exact ⟨hexact, hexact'⟩
    · rw [if_neg (isBy_iff.not.mpr hk), if_neg (isBy_iff.not.mpr hk), bought_congr (hothers _ hk),
        bought_congr (hothers _ hk), add_zero, add_zero]
      exact ⟨rfl, rfl⟩

end First

end Ledgers.Fits

end ChainLedger
