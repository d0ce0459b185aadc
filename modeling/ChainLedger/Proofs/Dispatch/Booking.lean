import ChainLedger.Proofs.Decimal.Faithful
import ChainLedger.Proofs.Dispatch.Commutation
import ChainLedger.Proofs.Dispatch.Supply

/-!
# What a deposit moves

A deposit that is applied is booked in five balances: what is left of the
offering and of its fractional token, what the offering sold, and the two
totals of the buyer (`Booking.balances`). Each comes to the exact sum or
difference if that is a decimal, and to a neighbour of it if it is none
(`Host.Quiet.booked_of_applied`); the purchase itself is recorded as it was
paid. Numbers on a common grid are decimals, so nothing is lost there
(`Booking.exact_of_onGrid`); a balance of many digits can take no notice of a
small amount (`kept_of_crumb`). Over a run, what an offering has left stays
close to what its purchases leave of it (`Traffic.supply_drift`).
-/

namespace ChainLedger

open Decimal FundDeposit Settlement

/-! ## One deposit -/

/-- **The documents that a settlement is booked in**, before and after it. -/
structure Booking (d : Settlement) (l l' : Ledgers) where
  offering : Offering
  offeringAfter : Offering
  fnft : Fnft
  fnftAfter : Fnft
  entryAfter : WhitelistEntry
  time : Instant
  fresh : l.purchases.get? d.txHash = none
  purchase : l'.purchases.get? d.txHash = some (d.purchase time)
  offering_before : l.offerings.get? d.deposit.offeringId = some offering
  offering_after : l'.offerings.get? d.deposit.offeringId = some offeringAfter
  fnft_before : l.fnfts.get? offering.fnftId = some fnft
  fnft_after : l'.fnfts.get? offering.fnftId = some fnftAfter
  entry_after : l'.whitelist.get? d.deposit.whitelistKey = some entryAfter

/-- **The balances that are moved**: what each exactly comes to, and what it is
after the settlement. -/
def Booking.balances {d : Settlement} {l l' : Ledgers} (b : Booking d l l') :
    List (Rat × Decimal) :=
  [(b.offering.availableSupply.toRat - d.deposit.amount.toRat, b.offeringAfter.availableSupply),
    (b.fnft.availableSupply.toRat - d.deposit.amount.toRat, b.fnftAfter.availableSupply),
    (b.offering.soldValue.toRat + d.deposit.value.toRat, b.offeringAfter.soldValue),
    ((bought l.whitelist d.deposit.whitelistKey (·.purchasedAmount)).toRat +
      d.deposit.amount.toRat, b.entryAfter.purchasedAmount),
    ((bought l.whitelist d.deposit.whitelistKey (·.depositedValue)).toRat +
      d.deposit.value.toRat, b.entryAfter.depositedValue)]

/-- **A deposit that is settled is booked**, every balance next to what it
exactly comes to. -/
theorem FundDeposit.booked_of_settle {p : FundDeposit} {txHash : String} {clock : Clock}
    {l l' : Ledgers} {fx : List Effect} (h : p.settle txHash clock l = .ok (l', fx)) :
    ∃ b : Booking ⟨txHash, p⟩ l l', ∀ x ∈ b.balances, Rounds x.1 x.2 := by
  obtain ⟨x, -, -⟩ := of_settle h
  obtain ⟨hfresh, t, hpurchases⟩ := purchases_settle h
  obtain ⟨⟨w, hw, hpurchased, hdeposited⟩, -⟩ := whitelist_settle h
  obtain ⟨offering, hoffering, hfnfts⟩ := fnfts_settle h
  obtain rfl := Option.some.inj (x.offering_found.symm.trans hoffering)
  obtain ⟨o, ho, hsold⟩ := (hoffering ▸ offerings_settle h p.offeringId).of_some
  obtain ⟨f, hf, hdrawn⟩ := (x.fnft_found ▸ hfnfts x.offering.fnftId).of_some
  rw [if_pos rfl] at hsold hdrawn
  refine ⟨⟨x.offering, o, x.fnft, f, w, t, hfresh, (hpurchases txHash).trans (if_pos rfl),
    hoffering, ho, x.fnft_found, hf, hw⟩, ?_⟩
  simp only [Booking.balances, List.forall_mem_cons]
  exact ⟨rounds_sub? hsold.1, rounds_sub? hdrawn, rounds_add? hsold.2, rounds_add? hpurchased,
    rounds_add? hdeposited, nofun⟩

/-- **On a grid nothing is lost**: where every balance comes to a number on a
common grid, before its end, it is that number. -/
theorem Booking.exact_of_onGrid {d : Settlement} {l l' : Ledgers} {b : Booking d l l'} {s : Nat}
    (hb : ∀ x ∈ b.balances, Rounds x.1 x.2) (hs : s ≤ maxScale)
    (hgrid : ∀ x ∈ b.balances, OnGrid s x.1 ∧ x.1 < gridEnd s) :
    ∀ x ∈ b.balances, x.2.toRat = x.1 := by
  intro x hx
  obtain ⟨hon, hend⟩ := hgrid x hx
  exact (hb x hx).eq_of_representable (.of_onGrid hs hon hend)

/-- **A deposit moves what it says**, as far as there are decimals for it: the
purchase is recorded, and each balance is what it exactly comes to, unless no
decimal is; then it is a neighbour. -/
theorem Host.Quiet.booked_of_applied {σ : Type} {h : Host σ} (hq : h.Quiet)
    {settings : DispatchSettings} {raw : InboundEvent} {s : σ} (hname : raw.eventName = "Deposit")
    (happlied : (h.dispatch settings raw s).1.isApplied = true) :
    ∃ d, raw.settlement? = some d ∧
      ∃ b : Booking d (h.ledgers s) (h.ledgers (h.dispatch settings raw s).2),
        ∀ x ∈ b.balances, Rounds x.1 x.2 ∧ (x.2.toRat = x.1 ↔ Representable x.1) := by
  obtain ⟨n, k, hreport⟩ := Report.isApplied_iff.mp happlied
  obtain ⟨⟨o, p⟩, clock, fx, hraw, c, hcommits, hc⟩ := hq.changes_of_applied hreport
  have hevent := InboundEvent.event_of_normalize hraw
  rw [hname] at hevent
  cases hcommits with
  | @deposit p txHash hsettleable =>
    obtain ⟨hhash, -⟩ := of_settleable hsettleable
    obtain ⟨b, hb⟩ := booked_of_settle hc
    exact ⟨_, InboundEvent.settlement?_of_normalize hraw hhash, b,
      fun x hx => ⟨hb x hx, (hb x hx).eq_iff⟩⟩
  | _ => exact absurd hevent (by simp [Payload.event])

namespace Tally

theorem booked_first :
    (host.dispatch ⟨false, 1⟩ (buys 171 "10" "2.5") ⟨shop .epoch, 0⟩).1.isApplied = true ∧
      ∃ d, (buys 171 "10" "2.5").settlement? = some d ∧
        ∃ b : Booking d (shop .epoch)
          (host.dispatch ⟨false, 1⟩ (buys 171 "10" "2.5") ⟨shop .epoch, 0⟩).2.ledgers,
          ∀ x ∈ b.balances, Rounds x.1 x.2 ∧ (x.2.toRat = x.1 ↔ Representable x.1) := by
  have happlied : (host.dispatch ⟨false, 1⟩ (buys 171 "10" "2.5") ⟨shop .epoch, 0⟩).1.isApplied =
      true := by decide +kernel
  exact ⟨happlied, steady_host.toQuiet.booked_of_applied rfl happlied⟩

/-- A hundred thousand million. -/
def plenty : Decimal := (ofParts? 100000000000 0).getD .zero

/-- A fractional token of that supply. -/
def wholesale : Fnft := ⟨"fnft", none, [], .active, plenty, plenty, .epoch⟩

/-- An offering of all of it. -/
def bulk : Offering := { sampleOffering with totalSupply := plenty, availableSupply := plenty }

/-- Ledgers with the two. -/
def warehouse : Ledgers := Seed.ledgers { fnfts := [wholesale], offerings := [bulk] }

theorem withinSupply_warehouse : warehouse.WithinSupply := by
  constructor
  · intro k o ho
    have hmem : o ∈ [bulk] := Collection.mem_toList.mpr ⟨k, ho⟩
    rw [List.mem_singleton.mp hmem]
    exact ⟨by decide +kernel, le_rfl⟩
  · intro k f hf
    have hmem : f ∈ [wholesale] := Collection.mem_toList.mpr ⟨k, hf⟩
    rw [List.mem_singleton.mp hmem]
    exact ⟨by decide +kernel, le_rfl⟩

/-- A purchase of one unit of the eighteenth fraction digit. -/
def crumb : InboundEvent := buys 171 "0.000000000000000001" "1"

/-- The settlement of it. -/
def crumbSettlement : Settlement :=
  ⟨Hash.toText (.ofNat 171), "offering", .ofNat 1, (Decimal.ofParts? 1 18).getD .zero,
    (Decimal.ofParts? 1 0).getD .zero⟩

/-- The ledgers after it. -/
def afterCrumb : Ledgers := (host.dispatch ⟨false, 1⟩ crumb ⟨warehouse, 0⟩).2.ledgers

/-- **A supply of many digits takes no notice of a small amount**: the purchase
is settled, and there is as much left as before. -/
theorem kept_of_crumb :
    warehouse.WithinSupply ∧
      (host.dispatch ⟨false, 1⟩ crumb ⟨warehouse, 0⟩).1.isApplied = true ∧
      crumb.settlement? = some crumbSettlement ∧ 0 < crumbSettlement.deposit.amount.toRat ∧
      (afterCrumb.offerings.get? "offering").map (·.availableSupply.toRat) =
        (warehouse.offerings.get? "offering").map (·.availableSupply.toRat) ∧
      (afterCrumb.fnfts.get? "fnft").map (·.availableSupply.toRat) =
        (warehouse.fnfts.get? "fnft").map (·.availableSupply.toRat) ∧
      ¬ ∃ b : Booking crumbSettlement warehouse afterCrumb, ∀ x ∈ b.balances, x.2.toRat = x.1 := by
  have hpositive : 0 < crumbSettlement.deposit.amount.toRat := by decide +kernel
  have hkept : (afterCrumb.offerings.get? "offering").map (·.availableSupply.toRat) =
      (warehouse.offerings.get? "offering").map (·.availableSupply.toRat) := by decide +kernel
  refine ⟨withinSupply_warehouse, by decide +kernel, by rfl, hpositive, hkept,
    by decide +kernel, ?_⟩
  rintro ⟨b, hexact⟩
  have hoffering : b.offeringAfter.availableSupply.toRat = b.offering.availableSupply.toRat := by
    have hafter := congrArg (Option.map (·.availableSupply.toRat)) b.offering_after
    have hbefore := congrArg (Option.map (·.availableSupply.toRat)) b.offering_before
    exact Option.some.inj (hafter.symm.trans (hkept.trans hbefore))
  have hdrawn := hexact _ (List.mem_cons_self ..)
  rw [hoffering] at hdrawn
  linarith

end Tally

/-! ## Any number of deposits -/

namespace Decimal

variable {as : List Decimal} {a d : Decimal}

/-- What is left after some amounts were drawn is not above what there was. -/
theorem toRat_le_of_draws (h : as.foldlM sub? a = some d) (has : ∀ b ∈ as, 0 ≤ b.toRat) :
    d.toRat ≤ a.toRat := by
  induction as generalizing a with
  | nil =>
    cases h
    exact le_rfl
  | cons b as ih =>
    rw [List.forall_mem_cons] at has
    obtain ⟨rest, hrest, h⟩ := Option.bind_eq_some_iff.mp h
    exact (ih h has.2).trans (toRat_sub?_le has.1 hrest)

/-- **Drawing some amounts drifts little** from their exact sum: each of them
adds less than `2 ^ -93` of what there was at the start. -/
theorem drift_of_draws (h : as.foldlM sub? a = some d) (has : ∀ b ∈ as, 0 ≤ b.toRat)
    (hd : 0 ≤ d.toRat) :
    |a.toRat - total as - d.toRat| * 2 ^ (93 : Nat) ≤ as.length * a.toRat := by
  induction as generalizing a with
  | nil =>
    cases h
    simp [total]
  | cons b as ih =>
    rw [List.forall_mem_cons] at has
    obtain ⟨rest, hrest, h⟩ := Option.bind_eq_some_iff.mp h
    have hnonneg : 0 ≤ rest.toRat := hd.trans (toRat_le_of_draws h has.2)
    have hle : rest.toRat ≤ a.toRat := toRat_sub?_le has.1 hrest
    have hcovered : b.toRat ≤ a.toRat := le_of_sub? hrest (not_lt_zero_iff.mpr hnonneg)
    have hnear := (rounds_sub? hrest).near
    rw [abs_of_nonneg (sub_nonneg.mpr hcovered)] at hnear
    have hdrift := ih h has.2
    have htriangle : |a.toRat - total (b :: as) - d.toRat| ≤
        |rest.toRat - total as - d.toRat| + |rest.toRat - (a.toRat - b.toRat)| := by
      rw [abs_sub_comm rest.toRat, total, List.map_cons, List.sum_cons, ← total]
      refine le_trans (le_of_eq ?_) (abs_add_le _ _)
      congr 1
      ring
    have hcount : (as.length : Rat) * rest.toRat ≤ as.length * a.toRat :=
      mul_le_mul_of_nonneg_left hle (Nat.cast_nonneg _)
    rw [List.length_cons, Nat.cast_succ]
    linarith [has.1]

end Decimal

namespace Traffic

variable {ι : Type} [DecidableEq ι] {settings : DispatchSettings} {raws : ι → InboundEvent}
  {l₀ : Ledgers} {t : Traffic ι}

/-- A deposit that was applied is of an amount above zero. -/
theorem amount_pos_of_run {i : ι} {d : Settlement} (hl : l₀.Keyed) (h : Run settings raws l₀ t)
    (hi : i ∈ t.applied) (hd : (raws i).settlement? = some d) : 0 < d.deposit.amount.toRat := by
  obtain ⟨u, u', ⟨o, p⟩, -, -, happlies⟩ := sound_start.exists_applies hl h List.not_mem_nil hi
  obtain ⟨clock, fx, c, hcommits, -⟩ := happlies.changes
  simp only [InboundEvent.settlement?, happlies.normal] at hd
  cases hcommits with
  | @deposit p txHash hsettleable =>
    obtain ⟨-, hamounts, -⟩ := of_settleable hsettleable
    obtain ⟨_, -, rfl⟩ := Option.map_eq_some_iff.mp hd
    rw [not_or, le_iff, toRat_zero, not_le] at hamounts
    exact hamounts.1
  | _ => cases hd

/-- **The supply of an offering drifts little** from what its purchases leave
of it: in any run from ledgers whose supplies are within their bounds, each
deposit adds less than `2 ^ -93` of the supply at the start. -/
theorem supply_drift (hl : l₀.Keyed) (hs : l₀.WithinSupply) (h : Run settings raws l₀ t) :
    ∃ ds, (deposits raws t.applied).map (·.settlement?) = ds.map some ∧
      ∀ k o₀ o, l₀.offerings.get? k = some o₀ → t.ledgers.offerings.get? k = some o →
        |o₀.availableSupply.toRat - total (amounts (isOf k) ds) - o.availableSupply.toRat| *
            2 ^ (93 : Nat) ≤
          (amounts (isOf k) ds).length * o₀.availableSupply.toRat := by
  obtain ⟨ds, hds, hsettled⟩ := (h.sound hl).yields.settled hl
  refine ⟨ds, hds, fun k o₀ o ho₀ ho => ?_⟩
  have hnonneg : ∀ a ∈ amounts (isOf k) ds, 0 ≤ a.toRat := by
    intro a ha
    obtain ⟨d, hd, rfl⟩ := List.mem_map.mp ha
    have hmem : some d ∈ ds.map some := List.mem_map_of_mem (List.mem_of_mem_filter hd)
    rw [← hds] at hmem
    obtain ⟨raw, hraw, hsettles⟩ := List.mem_map.mp hmem
    obtain ⟨i, hi, rfl⟩ := List.mem_map.mp (List.mem_of_mem_filter hraw)
    exact (amount_pos_of_run hl h hi hsettles).le
  have hwithin := (sound_start.withinSupply hl h hs).offerings k o ho
  exact drift_of_draws ((hsettled.offerings k).of_eq_some ho₀ ho).1 hnonneg hwithin.nonneg

end Traffic

end ChainLedger
