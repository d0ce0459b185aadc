import ChainLedger.Proofs.Dispatch.Moment
import ChainLedger.Proofs.Dispatch.Settlement
import ChainLedger.Proofs.Transition.Stake

/-!
# The ledger of stakes

The stakes and unstakes that were applied, in the order of their commits,
account for all of the stakes: each is one receipt under a hash of its own,
whichever way it goes, and what an account has staked in a pool is what it had
at the start, moved by them one after the other (`Staked`). No stake is ever
negative, and none is taken back that is not there.
-/

namespace ChainLedger

/-! ## Moves -/

/-- A change of a stake, the way it goes, and the hash that it is kept by. -/
structure StakeMove where
  txHash : String
  direction : StakeDirection
  change : StakeChange

/-- The move of an event, if it moves a stake by a transaction. -/
def InboundEvent.stakeMove? (raw : InboundEvent) : Option StakeMove :=
  match raw.normalize with
  | .ok (some e) =>
    e.payload.stakes?.bind fun (d, p) => e.origin.txHash.map fun txHash => ⟨txHash, d, p⟩
  | _ => none

namespace StakeMove

/-- The receipt of a move. -/
def receipt (m : StakeMove) (t : Instant) : StakeReceipt :=
  ⟨m.txHash, m.change.poolId, m.change.account, m.change.amount, m.direction, t⟩

/-- The move is of a pool and an account. -/
def isOf (pool : String) (account : Address) (m : StakeMove) : Bool :=
  m.change.poolId = pool ∧ m.change.account = account

/-- A stake is that of a move if it is under the key of its change. -/
theorem isOf_iff {pool : String} {account : Address} {m : StakeMove} :
    isOf pool account m = true ↔ keyOf pool account = m.change.positionKey := by
  simp only [isOf, decide_eq_true_eq]
  constructor
  · rintro ⟨rfl, rfl⟩
    rfl
  · intro h
    obtain ⟨hp, ha⟩ := keyOf_inj h
    exact ⟨hp.symm, ha.symm⟩

/-- What is staked after a move, if it is a decimal: the amount of a stake is
added, and that of an unstake is subtracted. -/
def move (staked : Decimal) (m : StakeMove) : Option Decimal :=
  match m.direction with
  | .stake => staked.add? m.change.amount
  | .unstake => staked.sub? m.change.amount

/-- A change moves a stake so, whichever way it goes. -/
theorem move_eq_moved (txHash : String) (d : StakeDirection) (p : StakeChange) (staked : Decimal) :
    move staked ⟨txHash, d, p⟩ = p.moved d staked := by
  cases d with
  | stake => rfl
  | unstake => rfl

end StakeMove

open StakeMove

/-- **Ledgers after some moves of stakes**, all decimal operations done in
order. -/
structure Staked (l₀ : Ledgers) (ms : List StakeMove) (l : Ledgers) : Prop where
  /-- No two moves share a hash. -/
  hashes : (ms.map (·.txHash)).Nodup
  /-- No hash was taken before. -/
  fresh : ∀ m ∈ ms, l₀.stakeReceipts.get? m.txHash = none
  /-- Each move has its receipt. -/
  receipts : ∀ m ∈ ms, ∃ t, l.stakeReceipts.get? m.txHash = some (m.receipt t)
  /-- All other receipts are from before. -/
  others : ∀ k, k ∉ ms.map (·.txHash) → l.stakeReceipts.get? k = l₀.stakeReceipts.get? k
  /-- What every account has staked in every pool. -/
  staked : ∀ pool account, (ms.filter (isOf pool account)).foldlM move
    (l₀.stakedAt (keyOf pool account)) = some (l.stakedAt (keyOf pool account))
  /-- Accounts with a stake in a pool: those from before, and those that moved
  one. -/
  held : ∀ pool account, l.stakes.contains (keyOf pool account) = true ↔
    l₀.stakes.contains (keyOf pool account) = true ∨ ∃ m ∈ ms, isOf pool account m
  /-- No stake is negative. -/
  nonneg : ∀ k s, l.stakes.get? k = some s → ¬ s.staked < .zero

namespace Staked

variable {l₀ l l' : Ledgers} {ms : List StakeMove}

/-- **Nothing has moved at the start.** -/
theorem start (hl : ∀ k s, l₀.stakes.get? k = some s → ¬ s.staked < .zero) :
    Staked l₀ [] l₀ where
  hashes := List.nodup_nil
  fresh := nofun
  receipts := nofun
  others _ _ := rfl
  staked _ _ := rfl
  held pool account := by simp
  nonneg := hl

/-- **An event that leaves the stakes alone** moves nothing. -/
theorem same (h : Staked l₀ ms l) (hs : l.SameStakes l') : Staked l₀ ms l' where
  hashes := h.hashes
  fresh := h.fresh
  receipts m hm := by
    rw [hs.receipts]
    exact h.receipts m hm
  others k hk := (hs.receipts k).trans (h.others k hk)
  staked pool account := by
    rw [Ledgers.stakedAt_congr (hs.stakes _)]
    exact h.staked pool account
  held pool account := by
    rw [Collection.contains, hs.stakes, ← Collection.contains]
    exact h.held pool account
  nonneg k s hk := h.nonneg k s ((hs.stakes k).symm.trans hk)

/-- **A stake or an unstake** moves one stake more. -/
theorem move {p : StakeChange} {d : StakeDirection} {txHash : String} {clock : Clock}
    {fx : List Effect} (h : Staked l₀ ms l) (happly : p.apply d txHash clock l = .ok (l', fx)) :
    Staked l₀ (ms ++ [⟨txHash, d, p⟩]) l' := by
  obtain ⟨hfree, t, hreceipts⟩ := StakeChange.receipts_apply happly
  obtain ⟨⟨a, ha, hmoved, hneg⟩, hothers⟩ := StakeChange.stakes_apply happly
  have hentered : Entered l₀.stakeReceipts (·.txHash) receipt (ms ++ [⟨txHash, d, p⟩])
      l'.stakeReceipts :=
    Entered.snoc ⟨h.hashes, h.fresh, h.receipts, h.others⟩ hfree hreceipts
  constructor
  case hashes => exact hentered.hashes
  case fresh => exact hentered.fresh
  case receipts => exact hentered.entries
  case others => exact hentered.others
  case staked =>
    intro pool account
    refine foldlM_filter_snoc (h.staked pool account) ?_
    by_cases hk : keyOf pool account = p.positionKey
    · rw [if_pos (isOf_iff.mpr hk), hk, Ledgers.stakedAt_of_get? ha, move_eq_moved]
      exact hmoved
    · rw [if_neg (isOf_iff.not.mpr hk)]
      exact Ledgers.stakedAt_congr (hothers _ hk)
  case held =>
    intro pool account
    have hiff := h.held pool account
    by_cases hk : keyOf pool account = p.positionKey
    · have hthere : l'.stakes.contains (keyOf pool account) = true :=
        Collection.contains_iff.mpr ⟨a, hk ▸ ha⟩
      exact ⟨fun _ => .inr ⟨_, List.mem_append_right _ (.head _), isOf_iff.mpr hk⟩,
        fun _ => hthere⟩
    · have hof : ¬ isOf pool account ⟨txHash, d, p⟩ = true := isOf_iff.not.mpr hk
      rw [Collection.contains, hothers _ hk, ← Collection.contains, hiff]
      simp [List.mem_append, or_and_right, exists_or, hof]
  case nonneg =>
    intro k s hs
    by_cases hk : k = p.positionKey
    · rw [hk, ha] at hs
      obtain rfl := Option.some.inj hs
      exact hneg
    · exact h.nonneg k s ((hothers k hk).symm.trans hs)

end Staked

/-! ## Runs -/

/-- The stakes and unstakes among some events. -/
def stakings {ι : Type} (raws : ι → InboundEvent) (is : List ι) : List InboundEvent :=
  (is.map raws).filter fun raw => raw.eventName = "Stake" ∨ raw.eventName = "Unstake"

/-- An event is called a stake or an unstake if it moves a stake. -/
theorem Payload.isSome_stakes?_iff (p : Payload) :
    p.stakes?.isSome = true ↔ p.event = "Stake" ∨ p.event = "Unstake" := by
  cases p <;> simp [stakes?, event]

/-- **A log accounts for its stakes and unstakes**, every one of them. -/
theorem Yields.staked {ι : Type} {verify : Bool} {raws : ι → InboundEvent} {l₀ l : Ledgers}
    {log : List (Commitment ι)} (hl : l₀.Keyed)
    (hs : ∀ k s, l₀.stakes.get? k = some s → ¬ s.staked < .zero)
    (h : Yields verify raws l₀ log l) :
    ∃ ms, (stakings raws (log.map (·.of))).map (·.stakeMove?) = ms.map some ∧
      Staked l₀ ms l := by
  induction h with
  | nil => exact ⟨[], rfl, .start hs⟩
  | @snoc log l x e c l' fx hlog hraw hlead hc ih =>
    obtain ⟨ms, hms, hstaked⟩ := ih
    have hkeyed := (hlog.follows hl).keyed hl
    have hchange : e.Changes x.clock l l' fx := ⟨c, Event.commits_of_leads hlead, hc⟩
    have hname := InboundEvent.event_of_normalize hraw
    have hiff := e.payload.isSome_stakes?_iff
    rw [hname] at hiff
    cases hkind : e.payload.stakes? with
    | some move =>
      obtain ⟨d, p⟩ := move
      obtain ⟨txHash, hhash, happly⟩ := hchange.moves hkind
      have hmove : (raws x.of).stakeMove? = some ⟨txHash, d, p⟩ := by
        simp only [InboundEvent.stakeMove?, hraw, hkind, hhash, Option.bind_some, Option.map_some]
      have hcounts : (raws x.of).eventName = "Stake" ∨ (raws x.of).eventName = "Unstake" :=
        hiff.mp (by rw [hkind]; rfl)
      refine ⟨ms ++ [⟨txHash, d, p⟩], ?_, hstaked.move happly⟩
      simpa [stakings, hcounts, hmove] using hms
    | none =>
      have hother : ¬ ((raws x.of).eventName = "Stake" ∨ (raws x.of).eventName = "Unstake") := by
        rw [← hiff, hkind]
        exact Bool.false_ne_true
      refine ⟨ms, ?_, hstaked.same (hchange.sameStakes hkeyed hkind)⟩
      simpa [stakings, hother] using hms

namespace Traffic

variable {ι : Type} [DecidableEq ι] {settings : DispatchSettings} {raws : ι → InboundEvent}
  {l₀ : Ledgers} {t : Traffic ι}

/-- **What became of stakes** in a run up to some moment. -/
structure Stakes (settings : DispatchSettings) (raws : ι → InboundEvent) (l₀ : Ledgers)
    (t : Traffic ι) : Prop where
  /-- The stakes and unstakes that were applied account for them. -/
  accounted : ∃ ms, (stakings raws t.applied).map (·.stakeMove?) = ms.map some ∧
    Staked l₀ ms t.ledgers
  /-- An unstake that was applied took back no more than was staked. -/
  covered : ∀ i o p, (raws i).normalize = .ok (some ⟨o, .unstake p⟩) → i ∈ t.applied →
    ∃ u u', Passes settings.verifyReceipts (start settings raws l₀) u u' t ∧
      Applies settings.verifyReceipts raws i ⟨o, .unstake p⟩ u u' ∧
      p.amount.toRat ≤ (u.ledgers.stakedAt p.positionKey).toRat

/-- **The ledger of stakes is sound.** In any run from ledgers without a
negative stake, the stakes and unstakes that were applied account for every
stake and every receipt, and none took back what was not there. -/
theorem stakes_of_run (hl : l₀.Keyed)
    (hs : ∀ k s, l₀.stakes.get? k = some s → ¬ s.staked < .zero) (h : Run settings raws l₀ t) :
    Stakes settings raws l₀ t where
  accounted := (h.sound hl).yields.staked hl hs
  covered i o p hraw hi := by
    obtain ⟨u, u', e, hpasses, hsound, happlies⟩ :=
      sound_start.exists_applies hl h List.not_mem_nil hi
    obtain rfl : ⟨o, .unstake p⟩ = e := by simpa [hraw] using happlies.normal
    obtain ⟨clock, fx, hchanges⟩ := happlies.changes
    obtain ⟨txHash, -, happly⟩ := hchanges.moves (d := .unstake) (p := p) rfl
    exact ⟨u, u', hpasses, happlies, StakeChange.covered_apply happly rfl⟩

/-- A stake of an account. -/
def sampleStake : StakePosition := ⟨"pool", default, (Decimal.ofParts? 5 0).getD .zero, .epoch⟩

/-- A pool on its chain, with the stake. -/
def samplePool : Ledgers :=
  { Seed.ledgers { pools := [⟨"pool", .onChain, none, .epoch⟩] } with
    stakes := .ofList [sampleStake] }

/-- A stake, an unstake by the same transaction in another spelling, and an
unstake by another one. -/
def stakeAndUnstake : Fin 3 → InboundEvent
  | 0 => move "Stake" "0xAB" "10"
  | 1 => move "Unstake" " 0Xab" "1"
  | 2 => move "Unstake" "0xcd" "12.5"
where
  /-- A move of the stake. -/
  move (name txHash amount : String) : InboundEvent :=
    ⟨"record", name, 1, default, some txHash, .obj
      [("poolId", .str "pool"),
        ("account", .str "0x0000000000000000000000000000000000000000"),
        ("amount", .str amount)]⟩

theorem stakes_stakeAndUnstake :
    ∃ t, Run ⟨false, 1⟩ stakeAndUnstake samplePool t ∧ t.applied = [0, 2] ∧
      Stakes ⟨false, 1⟩ stakeAndUnstake samplePool t := by
  obtain ⟨t, hrun, happlied⟩ :=
    @Host.Quiet.run_of_reports _ _ _ _ stakeAndUnstake ⟨false, 1⟩ ⟨samplePool, [], []⟩
      (Rerun.quiet_host fun _ => true) [0, 1, 2] (by decide) (fun i => i != 1)
      (by decide +kernel)
  have hkeyed : samplePool.Keyed :=
    { Seed.keyed_ledgers { pools := [⟨"pool", .onChain, none, .epoch⟩] } with
      stakes := Collection.keyed_ofList _ }
  have hs : ∀ k s, samplePool.stakes.get? k = some s → ¬ s.staked < .zero := by
    intro k s hk
    have hmem : s ∈ [sampleStake] := Collection.mem_toList.mpr ⟨k, hk⟩
    rw [List.mem_singleton.mp hmem]
    decide +kernel
  exact ⟨t, hrun, happlied, stakes_of_run hkeyed hs hrun⟩

end Traffic

end ChainLedger
