import ChainLedger.Ledger.Stage
import Mathlib.Data.List.TakeWhile

/-!
# Stages only go forward

The rank of a stage is the number of boundaries that have passed, up to the
first that lies ahead (`Schedule.rank_stage`), in whatever order the
boundaries are. So as time goes on it never falls, and an ending stays the one
that it is (`Schedule.stage_of_isEnding`). Where the boundaries are in order,
each of the other stages is taken on its window and nowhere else
(`Schedule.stage_eq_iff`).
-/

namespace ChainLedger

namespace Instant

variable {t u v : Instant}

theorem not_lt : ¬ t < u ↔ u ≤ t := by
  rw [lt_iff, le_iff]
  omega

theorem le_trans (h : t ≤ u) (h' : u ≤ v) : t ≤ v := by
  rw [le_iff] at *
  omega

end Instant

namespace Stage

/-- The place of a stage in the order of stages. The two endings share the
last one. -/
def rank : Stage → ℕ
  | .upcoming => 0
  | .registerNow => 1
  | .onSaleSoon => 2
  | .onSale => 3
  | .completed | .failed => 4

/-- A stage that ends an offering. -/
def IsEnding (s : Stage) : Prop := s = .completed ∨ s = .failed

theorem rank_le (s : Stage) : s.rank ≤ 4 := by
  cases s <;> decide

theorem isEnding_iff {s : Stage} : s.IsEnding ↔ s.rank = 4 := by
  cases s <;> simp [IsEnding, rank]

end Stage

namespace Schedule

variable {w : Schedule} {t t' : Instant} {v v' : VaultType} {enough enough' : Bool} {s : Stage}

/-- The boundaries between stages, in the order in which they are looked at. -/
def boundaries (w : Schedule) : List Instant :=
  [w.registrationStart, w.registrationEnd, w.participationStart, w.participationEnd]

/-- How many boundaries have passed, up to the first that lies ahead. -/
def passed (w : Schedule) (t : Instant) : ℕ := (w.boundaries.takeWhile (· ≤ t)).length

/-- A boundary that has passed stays so. -/
theorem passed_mono (h : t ≤ t') : w.passed t ≤ w.passed t' := by
  unfold passed
  induction w.boundaries with
  | nil => exact le_rfl
  | cons x xs ih =>
    by_cases hx : x ≤ t
    · simp only [List.takeWhile_cons, hx, Instant.le_trans hx h, decide_true, if_true, List.length_cons]
      omega
    · simp [List.takeWhile_cons, hx]

/-- **The rank of a stage** is the number of boundaries that have passed. -/
theorem rank_stage : (w.stage t v enough).rank = w.passed t := by
  simp only [stage, passed, boundaries, List.takeWhile_cons, List.takeWhile_nil, ← Instant.not_lt,
    decide_not, Bool.not_eq_true', decide_eq_false_iff_not, ite_not]
  split_ifs <;> rfl

/-- **A stage never goes back**, whatever is sold in between. -/
theorem rank_stage_mono (h : t ≤ t') :
    (w.stage t v enough).rank ≤ (w.stage t' v' enough').rank := by
  rw [rank_stage, rank_stage]
  exact passed_mono h

/-- Which of the endings it is does not depend on the instant. -/
theorem stage_of_rank (h : (w.stage t v enough).rank = 4) :
    w.stage t v enough = if v = .nonVault ∨ enough then .completed else .failed := by
  unfold stage at h ⊢
  -- Before the last boundary the rank is less.
  split_ifs at h ⊢ <;> cases h
  all_goals rfl

/-- **An ending is for good.** -/
theorem stage_of_isEnding (h : t ≤ t') (hs : (w.stage t v enough).IsEnding) :
    w.stage t' v enough = w.stage t v enough := by
  have hrank := Stage.isEnding_iff.mp hs
  have hrank' : (w.stage t' v enough).rank = 4 :=
    le_antisymm (Stage.rank_le _) (hrank ▸ rank_stage_mono h)
  rw [stage_of_rank hrank, stage_of_rank hrank']

/-! ## Windows -/

/-- The boundaries are in order. -/
structure InOrder (w : Schedule) : Prop where
  registration : w.registrationStart ≤ w.registrationEnd
  pause : w.registrationEnd ≤ w.participationStart
  participation : w.participationStart ≤ w.participationEnd

/-- **The window of a stage**, which holds its start and not its end. The first
has no start, and the endings have no end. -/
def Window (w : Schedule) (t : Instant) : Stage → Prop
  | .upcoming => t < w.registrationStart
  | .registerNow => w.registrationStart ≤ t ∧ t < w.registrationEnd
  | .onSaleSoon => w.registrationEnd ≤ t ∧ t < w.participationStart
  | .onSale => w.participationStart ≤ t ∧ t < w.participationEnd
  | .completed | .failed => w.participationEnd ≤ t

/-- **Every stage but an ending is taken exactly on its window**, if the
boundaries are in order. -/
theorem stage_eq_iff (hw : w.InOrder) (hs : ¬ s.IsEnding) :
    w.stage t v enough = s ↔ w.Window t s := by
  obtain ⟨h₁, h₂, h₃⟩ := hw
  rw [Instant.le_iff] at h₁ h₂ h₃
  cases s with
  | completed => exact absurd (.inl rfl) hs
  | failed => exact absurd (.inr rfl) hs
  | _ =>
    simp only [stage, Window, Instant.lt_iff, Instant.le_iff]
    split_ifs <;> simp <;> omega

end Schedule

end ChainLedger
