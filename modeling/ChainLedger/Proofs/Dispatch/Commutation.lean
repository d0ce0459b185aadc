import ChainLedger.Proofs.Dispatch.Announcement
import ChainLedger.Proofs.Dispatch.Deposit

/-!
# Deposits commute when nothing rounds

Deposits that fit the ledgers are all applied, in whatever order they are
delivered, and all that they change are exact sums
(`Host.Quiet.deposits_commute`). A dispatch settles the deposit of its event
(`settled_dispatch`), which leaves ledgers that the deposits still to come fit,
so a run takes all of them (`took_dispatchAll`).

Each deposit moves watermarks on, and one that would leave the calendar is a
trap: next to its end a deposit is refused that fits in every other way
(`Tally.refused_late`).
-/

namespace ChainLedger

open Decimal Settlement FundDeposit

theorem settlements_cons {raw : InboundEvent} {raws : List InboundEvent} {d : Settlement}
    (h : raw.settlement? = some d) : settlements (raw :: raws) = d :: settlements raws :=
  List.filterMap_cons_some h

theorem InboundEvent.of_settlement? {raw : InboundEvent} {d : Settlement}
    (h : raw.settlement? = some d) :
    raw.normalize = .ok (some ⟨raw.origin, .deposit d.deposit⟩) ∧
      raw.origin.txHash = some d.txHash := by
  unfold settlement? at h
  split at h
  · next o p hraw =>
    obtain rfl : o = raw.origin := origin_of_normalize hraw
    obtain ⟨txHash, hhash, rfl⟩ := Option.map_eq_some_iff.mp h
    exact ⟨hraw, hhash⟩
  · cases h

namespace Host

variable {σ : Type} {h : Host σ} {settings : DispatchSettings} {raw : InboundEvent}
  {raws raws' : List InboundEvent} {d : Settlement} {ds : List Settlement} {scale : Nat} {s s' : σ}

/-- **The transaction of an event is confirmed**, if receipts are asked for. -/
def Confirms (h : Host σ) (settings : DispatchSettings) (raw : InboundEvent) : Prop :=
  settings.verifyReceipts = true → ∃ hash, raw.origin.hash = .ok hash ∧
    ∀ s, confirmed hash (h.answer (.receipt raw.origin.chain hash) s).1 = .ok ()

namespace Quiet

/-! ## One deposit -/

/-- An attempt whose transaction is confirmed comes to its commit. -/
theorem run_confirm (hq : h.Quiet) (hconfirms : h.Confirms settings raw) (c : Commit) (s : σ) :
    ∃ s₁, h.ledgers s₁ = h.ledgers s ∧
      h.run (.confirm settings.verifyReceipts raw.origin (.commit c)) s = h.commit c s₁ := by
  unfold Attempt.confirm
  split
  · next hverify =>
    obtain ⟨hash, hhash, hconfirmed⟩ := hconfirms hverify
    refine ⟨(h.answer (.receipt raw.origin.chain hash) s).2, hq.answer _ s, ?_⟩
    simp only [Attempt.check, hhash, run, hconfirmed]
  · exact ⟨s, rfl, rfl⟩

/-- **A deposit that fits is settled** at some readings of the clock. -/
theorem settled_dispatch (hq : h.Quiet) (hraw : raw.settlement? = some d)
    (hconfirms : h.Confirms settings raw) (hfits : (h.ledgers s).Fits scale (d :: ds))
    (hroom : (h.ledgers s).RoomFor (d :: ds)) (hclock : ∀ s, (h.clock s).1.HasRoom 1) :
    ∃ s₁ fx, d.deposit.settle d.txHash (h.clock s₁).1 (h.ledgers s) =
        .ok (h.ledgers (h.dispatch settings raw s).2, fx) ∧
      (h.dispatch settings raw s).1.isApplied = true := by
  obtain ⟨hnormal, hhash⟩ := InboundEvent.of_settlement? hraw
  have hsettleable : d.deposit.settleable raw.origin (h.ledgers s) = .ok d.txHash := by
    have hvalue : ¬ d.deposit.value < .zero :=
      Decimal.not_lt_zero_iff.mpr (hfits.onGrid d (.head _)).2.nonneg
    have hfree := Collection.not_contains_iff.mpr (hfits.fresh d (.head _))
    rw [settleable, Origin.requireTxHash, hhash, orRefuse_some_bind,
      require_bind_of (not_or.mpr ⟨hfits.positive d (.head _), hvalue⟩), require_bind_of hfree]
    rfl
  obtain ⟨s₁, hs₁, hrun⟩ := hq.run_confirm hconfirms (d.deposit.settle d.txHash) s
  obtain ⟨l', fx, hsettle⟩ := hfits.exists_settle hroom (hclock s₁)
  have hattempt : h.attempt settings.verifyReceipts ⟨raw.origin, .deposit d.deposit⟩ s =
      (.ok fx, h.write l' (h.clock s₁).2) := by
    have hcommit : h.commit (d.deposit.settle d.txHash) s₁ =
        (.ok fx, h.write l' (h.clock s₁).2) := by
      simp only [Host.commit, hq.clock, hs₁, hsettle]
    simp only [attempt, Event.attempt, FundDeposit.attempt, hsettleable, Attempt.check]
    exact hrun.trans hcommit
  -- There was no conflict, so it does not matter how many attempts are left.
  have hattempts (more : Nat) :
      h.attempts settings.verifyReceipts ⟨raw.origin, .deposit d.deposit⟩ more s =
        (.ok fx, h.write l' (h.clock s₁).2) := by
    cases more with
    | zero => exact hattempt
    | succ more => simp only [attempts, hattempt]
  refine ⟨s₁, fx, ?_, ?_⟩
  · simp only [dispatch, hnormal, apply, hattempts, hq.ledgers_fireAll, hq.write, hsettle]
  · simp only [dispatch, hnormal, apply, hattempts]
    rfl

/-! ## Runs -/

/-- **A run takes its deposits**, every one of them. -/
theorem took_dispatchAll (hq : h.Quiet) (hl : (h.ledgers s).Keyed)
    (hraws : ∀ raw ∈ raws, raw.settlement?.isSome)
    (hconfirms : ∀ raw ∈ raws, h.Confirms settings raw)
    (hfits : (h.ledgers s).Fits scale (settlements raws))
    (hroom : (h.ledgers s).RoomFor (settlements raws))
    (hclock : ∀ s, (h.clock s).1.HasRoom (settlements raws).length) :
    (h.dispatchAll settings raws s).1.map (·.isApplied) = raws.map (fun _ => true) ∧
      (h.ledgers s).Took (settlements raws) (h.ledgers (h.dispatchAll settings raws s).2) ∧
      (h.ledgers (h.dispatchAll settings raws s).2).Keyed := by
  -- By induction on the events: the others fit what the first of them leaves.
  induction raws generalizing s with
  | nil => exact ⟨rfl, .refl _, hl⟩
  | cons raw raws ih =>
    rw [List.forall_mem_cons] at hraws hconfirms
    obtain ⟨d, hd⟩ := Option.isSome_iff_exists.mp hraws.1
    rw [settlements_cons hd] at hfits hroom hclock ⊢
    obtain ⟨s₁, fx, hsettle, happlied⟩ := hq.settled_dispatch hd hconfirms.1 hfits hroom
      fun s => (hclock s).mono (Nat.succ_pos _)
    have htook := hfits.took hsettle
    have hothers : (h.ledgers s).Fits scale ([d] ++ settlements raws) := hfits
    obtain ⟨hreports, hrest, hkeyed⟩ := ih ((follows_settle hsettle).keyed hl) hraws.2 hconfirms.2
      (hothers.rest htook) (hroom.rest (hclock s₁) hsettle htook)
      fun s => (hclock s).mono (Nat.le_succ _)
    simp only [dispatchAll, List.map_cons, happlied, hreports]
    refine ⟨trivial, htook.trans hrest fun e he => ?_, hkeyed⟩
    rw [List.mem_singleton.mp he]
    exact (List.nodup_cons.mp hfits.hashes).1

/-- **Deposits commute when nothing rounds.** -/
theorem deposits_commute (hq : h.Quiet) (hl : (h.ledgers s).Keyed)
    (hraws : ∀ raw ∈ raws, raw.settlement?.isSome)
    (hconfirms : ∀ raw ∈ raws, h.Confirms settings raw)
    (hfits : (h.ledgers s).Fits scale (settlements raws))
    (hroom : (h.ledgers s).RoomFor (settlements raws))
    (hclock : ∀ s, (h.clock s).1.HasRoom (settlements raws).length)
    (hperm : raws.Perm raws') (hs : h.ledgers s' = h.ledgers s) :
    (h.dispatchAll settings raws' s').1.map (·.isApplied) = raws'.map (fun _ => true) ∧
      (h.ledgers s).Took (settlements raws) (h.ledgers (h.dispatchAll settings raws' s').2) ∧
      ∀ raws'' s'', raws.Perm raws'' → h.ledgers s'' = h.ledgers s →
        (h.ledgers (h.dispatchAll settings raws' s').2).SameByValue
          (h.ledgers (h.dispatchAll settings raws'' s'').2) := by
  -- Every order fits as the first one does.
  have hrun (raws' : List InboundEvent) (s' : σ) (hperm : raws.Perm raws')
      (hs : h.ledgers s' = h.ledgers s) :
      (h.dispatchAll settings raws' s').1.map (·.isApplied) = raws'.map (fun _ => true) ∧
        (h.ledgers s).Took (settlements raws) (h.ledgers (h.dispatchAll settings raws' s').2) ∧
        (h.ledgers (h.dispatchAll settings raws' s').2).Keyed := by
    have hds : (settlements raws).Perm (settlements raws') := hperm.filterMap _
    rw [← hs] at hl hfits hroom ⊢
    obtain ⟨hreports, htook, hkeyed⟩ := hq.took_dispatchAll hl
      (fun raw hraw => hraws raw (hperm.mem_iff.mpr hraw))
      (fun raw hraw => hconfirms raw (hperm.mem_iff.mpr hraw)) (hfits.perm hds) (hroom.perm hds)
      fun s => hds.length_eq ▸ hclock s
    exact ⟨hreports, htook.perm hds.symm, hkeyed⟩
  obtain ⟨hreports, htook, hkeyed⟩ := hrun raws' s' hperm hs
  refine ⟨hreports, htook, fun raws'' s'' hperm'' hs'' => ?_⟩
  obtain ⟨-, htook'', hkeyed''⟩ := hrun raws'' s'' hperm'' hs''
  exact htook.sameByValue htook'' hkeyed hkeyed''

end Quiet

end Host

namespace Tally

/-- Every transaction took effect. -/
def receipts : (q : Question) → q.Answer
  | .receipt _ hash => .ok (some ⟨hash, true, 0, []⟩ : Option Receipt)
  | q => answers q

/-- A host that confirms every transaction. -/
def confirming : Host Tally :=
  { host with answer := fun q s => (receipts q, s) }

theorem quiet_confirming : confirming.Quiet where
  write _ _ := rfl
  clock _ := rfl
  answer _ _ := rfl
  fire _ _ := rfl

/-- A purchase of a buyer under a hash. -/
def buys (hash : Nat) (amount value : String) : InboundEvent where
  recordId := "record"
  eventName := "Deposit"
  chain := 1
  contract := default
  txHash := some (Hash.toText (.ofNat hash))
  metadata := .obj
    [("iaoEventId", .str "offering"),
      ("buyer", .str "0x0000000000000000000000000000000000000001"),
      ("amount", .str amount), ("value", .str value)]

/-- Two purchases of one buyer. -/
def twoPurchases : List InboundEvent := [buys 171 "10" "2.5", buys 172 "0.5" "1"]

/-- The settlement of the first. -/
def firstPurchase : Settlement :=
  ⟨Hash.toText (.ofNat 171), "offering", .ofNat 1, (Decimal.ofParts? 10 0).getD .zero,
    (Decimal.ofParts? 25 1).getD .zero⟩

/-- The settlement of the second. -/
def secondPurchase : Settlement :=
  ⟨Hash.toText (.ofNat 172), "offering", .ofNat 1, (Decimal.ofParts? 5 1).getD .zero,
    (Decimal.ofParts? 1 0).getD .zero⟩

theorem settlement?_first : (buys 171 "10" "2.5").settlement? = some firstPurchase := by rfl

theorem settlement?_second : (buys 172 "0.5" "1").settlement? = some secondPurchase := by rfl

theorem settlements_twoPurchases :
    settlements twoPurchases = [firstPurchase, secondPurchase] := by
  rw [twoPurchases, settlements_cons settlement?_first, settlements_cons settlement?_second]
  rfl

/-- A hundred covers both, and where nothing was sold both are taken up. -/
theorem covers_twoPurchases {p : Settlement → Bool} (h : p firstPurchase = true)
    (h' : p secondPurchase = true) :
    Covers 1 .hundred (total (amounts p [firstPurchase, secondPurchase])) ∧
      TakesUp 1 .zero (total (amounts p [firstPurchase, secondPurchase])) ∧
      TakesUp 1 .zero (total (values p [firstPurchase, secondPurchase])) := by
  have hamounts : amounts p [firstPurchase, secondPurchase] =
      [firstPurchase.deposit.amount, secondPurchase.deposit.amount] := by
    simp [amounts, h, h']
  have hvalues : values p [firstPurchase, secondPurchase] =
      [firstPurchase.deposit.value, secondPurchase.deposit.value] := by
    simp [values, h, h']
  rw [hamounts, hvalues]
  exact ⟨⟨⟨1000, by decide +kernel⟩, by decide +kernel, by decide +kernel⟩,
    ⟨⟨0, by decide +kernel⟩, by decide +kernel⟩, ⟨⟨0, by decide +kernel⟩, by decide +kernel⟩⟩

/-- Ledgers with an offering and its fractional token, last written at an
instant. -/
def shop (updatedAt : Instant) : Ledgers :=
  Seed.ledgers
    { fnfts := [⟨"fnft", none, [], .active, .hundred, .hundred, updatedAt⟩]
      offerings := [{ sampleOffering with updatedAt := updatedAt }] }

theorem isOfFnft_shop (t : Instant) (k : String) :
    isOfFnft (shop t) k firstPurchase = true ↔ "fnft" = k := by
  have hget : (shop t).offerings.get? firstPurchase.deposit.offeringId =
      some { sampleOffering with updatedAt := t } := rfl
  rw [isOfFnft, hget]
  simp [sampleOffering]

/-- Both purchases fit, whenever the ledgers were last written. -/
theorem fits_shop (t : Instant) : (shop t).Fits 1 (settlements twoPurchases) := by
  rw [settlements_twoPurchases]
  constructor
  case scale => decide
  case hashes => decide +kernel
  all_goals rw [List.forall_mem_cons, List.forall_mem_singleton]
  case fresh => exact ⟨rfl, rfl⟩
  case positive => decide +kernel
  case onGrid =>
    exact ⟨⟨⟨100, by decide +kernel⟩, ⟨25, by decide +kernel⟩⟩,
      ⟨⟨5, by decide +kernel⟩, ⟨10, by decide +kernel⟩⟩⟩
  case found => exact ⟨⟨_, rfl, rfl, _, rfl⟩, ⟨_, rfl, rfl, _, rfl⟩⟩
  -- Both are of the same offering and by the same buyer, so the rest is the same for both.
  case offerings =>
    have hboth (o : Offering) (ho : (shop t).offerings.get? "offering" = some o) :
        Covers 1 o.availableSupply
            (total (amounts (isOf "offering") [firstPurchase, secondPurchase])) ∧
          TakesUp 1 o.soldValue
            (total (values (isOf "offering") [firstPurchase, secondPurchase])) := by
      cases ho
      obtain ⟨hcovers, -, htakes⟩ := covers_twoPurchases (p := isOf "offering") rfl rfl
      exact ⟨hcovers, htakes⟩
    exact ⟨hboth, hboth⟩
  case fnfts =>
    refine and_self_iff.mpr fun k f hk hf => ?_
    obtain rfl := (isOfFnft_shop t k).mp hk
    cases hf
    exact (covers_twoPurchases hk hk).1
  case whitelist =>
    have hboth := (covers_twoPurchases (p := isBy "offering" (.ofNat 1)) rfl rfl).2
    exact ⟨hboth, hboth⟩

theorem roomFor_shop {t : Instant} (h : 2 ≤ t.room) :
    (shop t).RoomFor (settlements twoPurchases) := by
  rw [settlements_twoPurchases]
  constructor
  all_goals rw [List.forall_mem_cons, List.forall_mem_singleton]
  case offerings =>
    refine and_self_iff.mpr ?_
    rintro _ ⟨⟩
    exact h
  case fnfts =>
    refine and_self_iff.mpr fun k hk => ?_
    obtain rfl := (isOfFnft_shop t k).mp hk
    rintro _ ⟨⟩
    exact h
  case whitelist => exact ⟨nofun, nofun⟩

theorem isSome_twoPurchases : ∀ raw ∈ twoPurchases, raw.settlement?.isSome := by
  unfold twoPurchases
  rw [List.forall_mem_cons, List.forall_mem_singleton, settlement?_first, settlement?_second]
  exact ⟨rfl, rfl⟩

theorem confirms_twoPurchases : ∀ raw ∈ twoPurchases, confirming.Confirms ⟨true, 1⟩ raw := by
  unfold twoPurchases
  rw [List.forall_mem_cons, List.forall_mem_singleton]
  exact ⟨fun _ => ⟨.ofNat 171, by rfl, fun _ => rfl⟩, fun _ => ⟨.ofNat 172, by rfl, fun _ => rfl⟩⟩

theorem two_le_room_epoch : 2 ≤ Instant.epoch.room := by decide +kernel

theorem hasRoom_confirming (s : Tally) :
    (confirming.clock s).1.HasRoom (settlements twoPurchases).length :=
  fun _ _ => two_le_room_epoch

theorem deposits_commute_twoPurchases :
    (confirming.dispatchAll ⟨true, 1⟩ twoPurchases ⟨shop .epoch, 0⟩).1.map (·.isApplied) =
        [true, true] ∧
      (confirming.ledgers ⟨shop .epoch, 0⟩).Took [firstPurchase, secondPurchase]
        (confirming.ledgers
          (confirming.dispatchAll ⟨true, 1⟩ twoPurchases ⟨shop .epoch, 0⟩).2) ∧
      (confirming.ledgers
        (confirming.dispatchAll ⟨true, 1⟩ twoPurchases ⟨shop .epoch, 0⟩).2).SameByValue
        (confirming.ledgers
          (confirming.dispatchAll ⟨true, 1⟩ twoPurchases.reverse ⟨shop .epoch, 0⟩).2) := by
  have hl : (confirming.ledgers ⟨shop .epoch, 0⟩).Keyed := Seed.keyed_ledgers _
  obtain ⟨hreports, htook, hsame⟩ :=
    quiet_confirming.deposits_commute hl isSome_twoPurchases confirms_twoPurchases
      (fits_shop .epoch) (roomFor_shop two_le_room_epoch) hasRoom_confirming (.refl _) rfl
  rw [settlements_twoPurchases] at htook
  exact ⟨hreports, htook,
    hsame twoPurchases.reverse ⟨shop .epoch, 0⟩ twoPurchases.reverse_perm.symm rfl⟩

/-- **Next to the end of the calendar deposits are refused** that fit in every
other way. -/
theorem refused_late :
    confirming.Quiet ∧ (shop ⟨Instant.lastSecond, 999999000, by decide⟩).Keyed ∧
      (∀ raw ∈ twoPurchases, raw.settlement?.isSome) ∧
      (∀ raw ∈ twoPurchases, confirming.Confirms ⟨true, 1⟩ raw) ∧
      (shop ⟨Instant.lastSecond, 999999000, by decide⟩).Fits 1 (settlements twoPurchases) ∧
      (∀ s, (confirming.clock s).1.HasRoom (settlements twoPurchases).length) ∧
      (confirming.dispatchAll ⟨true, 1⟩ twoPurchases
        ⟨shop ⟨Instant.lastSecond, 999999000, by decide⟩, 0⟩).1.map (·.isApplied) =
          [false, false] :=
  ⟨quiet_confirming, Seed.keyed_ledgers _, isSome_twoPurchases, confirms_twoPurchases, fits_shop _,
    hasRoom_confirming, by decide +kernel⟩

end Tally

end ChainLedger
