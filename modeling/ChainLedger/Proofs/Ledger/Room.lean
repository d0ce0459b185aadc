import ChainLedger.Proofs.Ledger.Revision
import ChainLedger.Proofs.Ledger.Refusal

/-!
# Room for watermarks

A write moves a watermark at most to the clock or one microsecond on, and
traps when no microsecond is left. `Instant.room` counts the microseconds
that are left, `Collection.HasRoom n` says that every document could be
written `n` times in a row, `HasRoomAt` says it of one, and `Clock.HasRoom` of
one with any reading of a clock. No write traps as
long as there is a microsecond (`exists_change`, `exists_update`,
`exists_insert`), and a write at a time with room takes one of them
(`HasRoomAt.update`).
-/

namespace ChainLedger

namespace Instant

variable {t u now : Instant} {n : Nat}

/-- **How many microseconds are left** until the calendar ends. -/
def room (t : Instant) : Nat :=
  (lastSecond - t.seconds).toNat * 1000000 + (t.secondEnd - 1 - t.nanos) / 1000

/-- A second is as long as it was before its nanoseconds reach its end. -/
theorem secondEnd_eq (hnanos : t.nanos ≤ u.nanos) (hu : u.nanos < t.secondEnd) :
    u.secondEnd = t.secondEnd := by
  unfold secondEnd at *
  by_cases hplain : t.nanos < 1000000000
  · rw [if_pos hplain] at hu ⊢
    rw [if_pos hu]
  · rw [if_neg hplain, if_neg (by omega)]

/-- The next microsecond has one less. -/
theorem room_of_succMicro? (h : t.succMicro? = some u) : t.room = u.room + 1 := by
  have hn := t.nanos_lt_secondEnd
  unfold succMicro? at h
  split at h
  · next hlt =>
    -- The second goes on, and ends where it did.
    have hend : u.secondEnd = t.secondEnd := by
      obtain rfl := Option.some.inj h
      exact secondEnd_eq (Nat.le_add_right ..) hlt
    obtain ⟨hseconds, hnanos⟩ : u.seconds = t.seconds ∧ u.nanos = t.nanos + 1000 := by
      rw [← Option.some.inj h]
      exact ⟨rfl, rfl⟩
    rw [room, room, hseconds, hend, hnanos]
    omega
  · split at h
    · next hge hlast =>
      -- The next second is a plain one, and it has all but begun.
      obtain ⟨hseconds, hnanos⟩ :
          u.seconds = t.seconds + 1 ∧ u.nanos = t.nanos + 1000 - t.secondEnd := by
        rw [← Option.some.inj h]
        exact ⟨rfl, rfl⟩
      have hend : u.secondEnd = 1000000000 := if_pos (by omega)
      rw [room, room, hseconds, hend, hnanos]
      omega
    · cases h

/-- **There is a next microsecond** as long as one is left. -/
theorem exists_succMicro? (h : 0 < t.room) : ∃ u, t.succMicro? = some u := by
  unfold succMicro?
  split
  · exact ⟨_, rfl⟩
  · next hge =>
    split
    · exact ⟨_, rfl⟩
    · next hlast =>
      unfold room at h
      have hseconds : (lastSecond - t.seconds).toNat = 0 := by omega
      omega

/-- The later of two instants has the room that both have. -/
theorem le_room_max (ht : n ≤ t.room) (hu : n ≤ u.room) : n ≤ (Instant.max t u).room := by
  unfold Instant.max
  split
  · exact hu
  · exact ht

end Instant

/-- **Every reading of a clock** leaves room for `n` writes. -/
def Clock.HasRoom (n : Nat) (clock : Clock) : Prop := ∀ calls key, n ≤ (clock calls key).room

theorem Clock.HasRoom.mono {clock : Clock} {n m : Nat} (h : clock.HasRoom n) (hmn : m ≤ n) :
    clock.HasRoom m :=
  fun calls key => Nat.le_trans hmn (h calls key)

theorem Clock.HasRoom.later {clock : Clock} {n : Nat} (h : clock.HasRoom n) (calls : Nat) :
    (clock.later calls).HasRoom n :=
  fun i => h (calls + i)

section Touching

variable {α : Type} [Document α] {now : Instant} {a b : α} {n : Nat}

/-- A document with a microsecond left can be touched. -/
theorem exists_touch (h : 0 < (Document.updatedAt a).room) : ∃ b, touch now a = .ok b := by
  obtain ⟨u, hu⟩ := Instant.exists_succMicro? h
  refine ⟨Document.stamp (Instant.max now u) a, ?_⟩
  unfold touch Instant.bump?
  rw [hu]
  rfl

/-- **A document that is touched** loses at most one microsecond of its room,
or it has the room of the clock. -/
theorem le_room_touch (h : touch now a = .ok b) (hnow : n ≤ now.room)
    (ha : n + 1 ≤ (Document.updatedAt a).room) : n ≤ (Document.updatedAt b).room := by
  unfold touch Instant.bump? at h
  cases hs : (Document.updatedAt a).succMicro? with
  | none =>
    rw [hs] at h
    cases h
  | some u =>
    rw [hs] at h
    obtain rfl := Except.ok.inj h
    rw [Document.updatedAt_stamp]
    have hu : n ≤ u.room := by
      have hroom := Instant.room_of_succMicro? hs
      omega
    exact Instant.le_room_max hnow hu

end Touching

namespace Collection

variable {α : Type} [Document α] {c c' : Collection α} {now : Readings} {f : α → α} {a b : α}
  {k key : String} {n m : Nat}

/-- **Every document could be written `n` times** in a row. -/
def HasRoom (n : Nat) (c : Collection α) : Prop :=
  ∀ k a, c.get? k = some a → n ≤ (Document.updatedAt a).room

theorem HasRoom.mono (h : c.HasRoom n) (hmn : m ≤ n) : c.HasRoom m :=
  fun k a ha => Nat.le_trans hmn (h k a ha)

/-! ## Writes go through -/

/-- Entries with room can be changed. -/
theorem exists_changeAll {p : String × α → Bool} {es : List (String × α)}
    (h : ∀ e ∈ es, p e → 0 < (Document.updatedAt (f e.2)).room) :
    ∃ es', changeAll now p f es = .ok es' := by
  induction es with
  | nil => exact ⟨[], rfl⟩
  | cons e es ih =>
    have hchange : ∃ b, changeIf now p f e = .ok b := by
      unfold changeIf
      split
      · next hp => exact exists_touch (h e List.mem_cons_self hp)
      · exact ⟨_, rfl⟩
    obtain ⟨b, hb⟩ := hchange
    obtain ⟨rest, hrest⟩ := ih fun e' he' => h e' (List.mem_cons_of_mem _ he')
    exact ⟨(e.1, b) :: rest, by rw [changeAll, hb, ok_bind, hrest, ok_bind]; rfl⟩

/-- **Documents with room can be changed.** -/
theorem exists_change {p : String × α → Bool}
    (h : ∀ k a, c.get? k = some a → p (k, a) → 0 < (Document.updatedAt (f a)).room) :
    ∃ c', c.change now p f = .ok c' := by
  obtain ⟨es', hes'⟩ : ∃ es', changeAll now p f c.entries = .ok es' :=
    exists_changeAll fun e he hp => h e.1 e.2 (get?_eq_some_iff.mpr he) hp
  unfold change
  split
  · exact ⟨_, rfl⟩
  · next r hr => cases hr.symm.trans hes'

/-- A document with room can be updated. -/
theorem exists_update (ha : c.get? key = some a) (h : 0 < (Document.updatedAt (f a)).room) :
    ∃ c', c.update now key f = .ok c' := by
  rw [update, if_pos (contains_iff.mpr ⟨a, ha⟩)]
  refine exists_change fun k b hb hk => ?_
  obtain rfl : k = key := by simpa using hk
  rw [← Option.some.inj (ha.symm.trans hb)]
  exact h

/-- A document with room can be inserted under a free key. -/
theorem exists_insert (hfree : c.get? (Document.key a) = none)
    (h : 0 < (Document.updatedAt a).room) : ∃ c', c.insert now a = .ok c' := by
  obtain ⟨b, hb⟩ : ∃ b, touch (now (Document.key a)) a = .ok b := exists_touch h
  rw [insert, if_neg (not_contains_iff.mpr hfree), hb]
  exact ⟨_, rfl⟩

/-! ## Writes leave room -/

/-- The document under a key, if there is one, could be written `n` times. -/
def HasRoomAt (n : Nat) (c : Collection α) (k : String) : Prop :=
  ∀ a, c.get? k = some a → n ≤ (Document.updatedAt a).room

theorem HasRoomAt.mono (h : c.HasRoomAt n k) (hmn : m ≤ n) : c.HasRoomAt m k :=
  fun a ha => Nat.le_trans hmn (h a ha)

/-- **An update takes one microsecond of the room** when it leaves the
watermark to the clock. -/
theorem HasRoomAt.update (hc : c.HasRoomAt (n + 1) k) (h : c.update now key f = .ok c')
    (hf : ∀ a, Document.updatedAt (f a) = Document.updatedAt a) (hnow : n ≤ (now key).room) :
    c'.HasRoomAt n k := by
  intro b hb
  obtain ⟨a, ha, hab⟩ := (hb ▸ (get?_update (k := k) h).2).to_some
  have hroom := hc a ha
  split at hab
  · next hk => exact le_room_touch hab (hk ▸ hnow) (by rw [hf]; exact hroom)
  · rw [hab]
    exact Nat.le_of_succ_le hroom

/-- What is inserted has one microsecond less than it came with. -/
theorem HasRoomAt.insert (hc : c.HasRoomAt n k) (h : c.insert now a = .ok c')
    (ha : n + 1 ≤ (Document.updatedAt a).room) (hnow : n ≤ (now (Document.key a)).room) :
    c'.HasRoomAt n k := by
  unfold Collection.insert at h
  split at h
  · cases h
  · obtain ⟨b, hb, h⟩ := bind_eq_ok.mp h
    obtain rfl := pure_eq_ok.mp h
    intro d hd
    rw [get?_set] at hd
    split at hd
    · obtain rfl := Option.some.inj hd
      exact le_room_touch hb hnow ha
    · exact hc d hd

end Collection

end ChainLedger
