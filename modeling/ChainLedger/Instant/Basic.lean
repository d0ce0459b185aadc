/-!
# Instants

An `Instant` is a second counted from the start of 1970 in universal time,
and nanoseconds into it. Nanoseconds from `10 ^ 9` on belong to a leap
second, which follows the second it is counted with. Instants are ordered by
the second and then by the nanoseconds (`Instant.rank`), and the calendar
ends with the year 262142.
-/

namespace ChainLedger

/-- Seconds since the start of 1970, and nanoseconds into the second. -/
structure Instant where
  seconds : Int
  nanos : Nat
  nanos_lt : nanos < 2000000000
deriving DecidableEq

namespace Instant

/-- The place of an instant in the order of time. -/
def rank (t : Instant) : Int := t.seconds * 2000000000 + t.nanos

instance : LT Instant := ⟨fun a b => a.rank < b.rank⟩
instance : LE Instant := ⟨fun a b => a.rank ≤ b.rank⟩

instance (a b : Instant) : Decidable (a < b) :=
  inferInstanceAs (Decidable (a.rank < b.rank))

instance (a b : Instant) : Decidable (a ≤ b) :=
  inferInstanceAs (Decidable (a.rank ≤ b.rank))

/-- The start of 1970. -/
def epoch : Instant := ⟨0, 0, by decide⟩

instance : Inhabited Instant := ⟨epoch⟩

theorem lt_iff (a b : Instant) : a < b ↔ a.rank < b.rank := Iff.rfl

theorem le_iff (a b : Instant) : a ≤ b ↔ a.rank ≤ b.rank := Iff.rfl

/-- The later of two instants. -/
protected def max (a b : Instant) : Instant := if a ≤ b then b else a

theorem le_max_right (a b : Instant) : b ≤ Instant.max a b := by
  by_cases h : a.rank ≤ b.rank <;> simp only [Instant.max, le_iff, h, if_true, if_false] <;> omega

/-- The last second of the year 262142. -/
def lastSecond : Int := 8210266876799

/-- Where the nanoseconds of the second end: twice as far in a leap second. -/
def secondEnd (t : Instant) : Nat :=
  if t.nanos < 1000000000 then 1000000000 else 2000000000

theorem secondEnd_le (t : Instant) : t.secondEnd ≤ 2000000000 := by
  unfold secondEnd; split <;> omega

theorem le_secondEnd (t : Instant) : 1000000000 ≤ t.secondEnd := by
  unfold secondEnd; split <;> omega

theorem nanos_lt_secondEnd (t : Instant) : t.nanos < t.secondEnd := by
  have := t.nanos_lt
  unfold secondEnd; split <;> omega

/-- **One microsecond later**, none past the end of the calendar. A leap
second is left only when it is over. -/
def succMicro? (t : Instant) : Option Instant :=
  if h : t.nanos + 1000 < t.secondEnd then
    some ⟨t.seconds, t.nanos + 1000, Nat.lt_of_lt_of_le h t.secondEnd_le⟩
  else if t.seconds < lastSecond then
    some ⟨t.seconds + 1, t.nanos + 1000 - t.secondEnd, by
      have := t.nanos_lt; have := t.le_secondEnd; omega⟩
  else none

/-- The next microsecond is later. -/
theorem lt_of_succMicro? {t u : Instant} (h : t.succMicro? = some u) : t < u := by
  have hn := t.nanos_lt
  unfold succMicro? at h
  split at h
  · obtain rfl := Option.some.inj h
    simp only [lt_iff, rank]; omega
  · split at h
    · obtain rfl := Option.some.inj h
      simp only [lt_iff, rank]; omega
    · exact absurd h (by simp)

/-- The two instants are less than a day apart. -/
def near (a b : Instant) : Bool :=
  let d := a.rank - b.rank
  decide (d.natAbs < 86400 * 2000000000)

end Instant

end ChainLedger
