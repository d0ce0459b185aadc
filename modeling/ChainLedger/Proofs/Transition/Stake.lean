import ChainLedger.Proofs.Decimal.Difference
import ChainLedger.Proofs.Transition.Footprint

/-!
# What a stake that moves leaves behind

A change of a stake leaves one stake and one receipt (`stakes_apply`,
`receipts_apply`). The rest of the ledger of stakes is as it was, and so is all
of it after any other event (`Event.Changes.sameStakes`). A stake is taken back
only as far as it goes: the test is made on the difference, which may have been
rounded, and still holds of the exact numbers (`covered_apply`).
-/

namespace ChainLedger

open Collection

variable {l l' : Ledgers} {clock : Clock} {fx : List Effect}

/-- What is staked under a key: nothing without a stake. -/
def Ledgers.stakedAt (l : Ledgers) (key : String) : Decimal :=
  ((l.stakes.get? key).map (·.staked)).getD .zero

namespace Ledgers

variable {k : String}

theorem stakedAt_of_get? {s : StakePosition} (h : l.stakes.get? k = some s) :
    l.stakedAt k = s.staked := by
  rw [stakedAt, h]
  rfl

theorem stakedAt_congr (h : l'.stakes.get? k = l.stakes.get? k) : l'.stakedAt k = l.stakedAt k := by
  rw [stakedAt, h, stakedAt]

end Ledgers

namespace StakeChange

variable {p : StakeChange} {d : StakeDirection} {txHash : String}

/-- A stake that is written is the one under its key, and the only one. -/
theorem get?_record {next : Decimal} {s s' : Collection StakePosition}
    (h : p.record clock next s = .ok s') :
    (∃ a, s'.get? p.positionKey = some a ∧ a.staked = next) ∧
      ∀ k, k ≠ p.positionKey → s'.get? k = s.get? k := by
  have hothers : ∀ k, k ≠ p.positionKey → s'.get? k = s.get? k := fun k hk =>
    (within_record h).others k fun hmem => hk (List.mem_singleton.mp hmem)
  refine ⟨?_, hothers⟩
  unfold record at h
  split at h
  · exact holds_update h fun _ _ _ => rfl
  · exact holds_insert h fun _ => rfl

variable (h : p.apply d txHash clock l = .ok (l', fx))

include h

/-- **One stake moves**, to a number that is not negative. -/
theorem stakes_apply :
    (∃ a, l'.stakes.get? p.positionKey = some a ∧
      p.moved d (l.stakedAt p.positionKey) = some a.staked ∧ ¬ a.staked < .zero) ∧
      ∀ k, k ≠ p.positionKey → l'.stakes.get? k = l.stakes.get? k := by
  obtain ⟨-, next, stakes, -, -, -, -, hmoved, hneg, hrecord, -, rfl, -⟩ := of_apply h
  obtain ⟨⟨a, ha, rfl⟩, hothers⟩ := get?_record hrecord
  exact ⟨⟨a, ha, hmoved, hneg⟩, hothers⟩

/-- **One receipt comes in**, under a hash that was free. -/
theorem receipts_apply :
    l.stakeReceipts.get? txHash = none ∧ ∃ t, ∀ k, l'.stakeReceipts.get? k =
      if k = txHash then some ⟨txHash, p.poolId, p.account, p.amount, d, t⟩
      else l.stakeReceipts.get? k := by
  obtain ⟨-, -, -, receipts, hfree, -, -, -, -, -, hreceipts, rfl, -⟩ := of_apply h
  obtain ⟨-, t, -, hget⟩ := get?_insert hreceipts
  exact ⟨hfree, t, hget⟩

/-- **No more is taken back than is staked.** -/
theorem covered_apply (hd : d = .unstake) :
    p.amount.toRat ≤ (l.stakedAt p.positionKey).toRat := by
  obtain ⟨a, -, hmoved, hneg⟩ := (stakes_apply h).1
  subst hd
  exact Decimal.le_of_sub? hmoved hneg

end StakeChange

/-- **Ledgers with the same stakes and receipts.** -/
structure Ledgers.SameStakes (l l' : Ledgers) : Prop where
  stakes : ∀ k, l'.stakes.get? k = l.stakes.get? k
  receipts : ∀ k, l'.stakeReceipts.get? k = l.stakeReceipts.get? k

/-- The way that an event moves a stake, if it moves one. -/
def Payload.stakes? : Payload → Option (StakeDirection × StakeChange)
  | .stake p => some (.stake, p)
  | .unstake p => some (.unstake, p)
  | _ => none

/-- An event that moves no stake leaves stakes and receipts alone. -/
theorem Event.Changes.sameStakes {e : Event} (hl : l.Keyed) (h : e.Changes clock l l' fx)
    (hkind : e.payload.stakes? = none) : l.SameStakes l' := by
  have hframed := h.framed hl
  have hnone : (e.footprint l).stakes = [] ∧ (e.footprint l).stakeReceipts = [] := by
    obtain ⟨o, p⟩ := e
    cases p with
    | stake | unstake => cases hkind
    | _ => exact ⟨rfl, rfl⟩
  constructor
  · intro k
    exact hframed.stakes.others k (by rw [hnone.1]; exact List.not_mem_nil)
  · intro k
    exact hframed.stakeReceipts.others k (by rw [hnone.2]; exact List.not_mem_nil)

/-- An event that moves a stake moves it by its commit. -/
theorem Event.Changes.moves {e : Event} {d : StakeDirection} {p : StakeChange}
    (h : e.Changes clock l l' fx) (hkind : e.payload.stakes? = some (d, p)) :
    ∃ txHash, e.origin.txHash = some txHash ∧ p.apply d txHash clock l = .ok (l', fx) := by
  obtain ⟨o, q⟩ := e
  obtain ⟨c, hc, h⟩ := h
  cases hc with
  | stake hp | unstake hp =>
    cases hkind
    exact ⟨_, (StakeChange.of_sensible hp).1, h⟩
  | _ => cases hkind

end ChainLedger
