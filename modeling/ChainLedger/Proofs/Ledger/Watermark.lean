import ChainLedger.Proofs.Ledger.Room
import ChainLedger.Proofs.Ledger.Evolution

/-!
# What a watermark tells

A conditional update compares a watermark and nothing else. That is enough:
over any sequence of calls on a collection, with a clock that may go back, a
call stamps each document it writes later than it was and leaves all others
as they were (`Call.writes_after`), so a document has its watermark back only
if nobody wrote it (`Collection.persists`).

`Call.written` says under which keys a call writes, before it is made. The
calendar must not end within the sequence: every watermark and every reading
of the clock has a microsecond left for each call (`HasRoom`, `Call.Fits`).
-/

namespace ChainLedger

/-- A call on a collection: an operation with its arguments. -/
inductive Collection.Call (α : Type)
  | insert (a : α)
  | update (key : String) (f : α → α)
  | updateFirst (p : α → Bool) (f : α → α)
  | updateMany (p : α → Bool) (f : α → α)
  | updateIfUnchanged (key : String) (watermark : Instant) (f : α → α)

namespace Collection.Call

variable {α : Type} [Document α] {c c' : Collection α} {now : Readings} {call : Call α}
  {f : α → α} {k : String} {n : Nat}

/-- What a call makes of a collection. It reads the clock at each document that
it touches. -/
def run (now : Readings) (c : Collection α) : Call α → Except Refusal (Collection α)
  | insert a => c.insert now a
  | update key f => c.update now key f
  | updateFirst p f => (c.updateFirst now p f).map fun found => found.elim c (·.2)
  | updateMany p f => c.updateMany now p f
  | updateIfUnchanged key watermark f => c.updateIfUnchanged now key watermark f

/-- The collection after a call: as it was if the call is refused. -/
def after (now : Readings) (c : Collection α) (call : Call α) : Collection α :=
  match call.run now c with
  | .ok c' => c'
  | .error _ => c

/-- **The keys that a call writes under.** -/
def written (c : Collection α) : Call α → List String
  | insert a => if c.contains (Document.key a) then [] else [Document.key a]
  | update key _ => if c.contains key then [key] else []
  | updateFirst p _ => ((c.entries.find? fun e => p e.2).map (·.1)).toList
  | updateMany p _ => (c.entries.filter fun e => p e.2).map (·.1)
  | updateIfUnchanged key watermark _ =>
    if (c.get? key).map Document.updatedAt = some watermark then [key] else []

/-- What a call puts in place of a document, before it is stamped. -/
def edit : Call α → Option α → Option α
  | insert a, _ => some a
  | update _ f, o => o.map f
  | updateFirst _ f, o => o.map f
  | updateMany _ f, o => o.map f
  | updateIfUnchanged _ _ f, o => o.map f

/-- The function of a call leaves watermarks to the collection. -/
def LeavesWatermarks : Call α → Prop
  | insert _ => True
  | update _ f => ∀ a, Document.updatedAt (f a) = Document.updatedAt a
  | updateFirst _ f => ∀ a, Document.updatedAt (f a) = Document.updatedAt a
  | updateMany _ f => ∀ a, Document.updatedAt (f a) = Document.updatedAt a
  | updateIfUnchanged _ _ f => ∀ a, Document.updatedAt (f a) = Document.updatedAt a

/-- **A call that keeps to the calendar**: every reading of the clock, and the
document that the call brings in, have `n` microseconds left, and watermarks are
the collection's. -/
structure Fits (n : Nat) (now : Readings) (call : Call α) : Prop where
  leaves : call.LeavesWatermarks
  clock : ∀ k, n ≤ (now k).room
  brought : ∀ a, call = .insert a → n ≤ (Document.updatedAt a).room

theorem Fits.mono {m : Nat} (h : call.Fits n now) (hmn : m ≤ n) : call.Fits m now :=
  ⟨h.leaves, fun k => Nat.le_trans hmn (h.clock k), fun a ha => Nat.le_trans hmn (h.brought a ha)⟩

/-- **A document under a key was written**: the one that a call makes of what
was there, stamped later than that and later than what was there. -/
def Wrote (call : Call α) (c c' : Collection α) (k : String) : Prop :=
  ∃ a b, call.edit (c.get? k) = some a ∧ c'.get? k = some b ∧
    b = Document.stamp (Document.updatedAt b) a ∧ Document.updatedAt a < Document.updatedAt b ∧
    ∀ d, c.get? k = some d → Document.updatedAt d < Document.updatedAt b

/-! ## One call -/

/-- A change of the documents that fit, in terms of the keys they are under. -/
theorem touched_of_change {p : String × α → Bool} {ks : List String}
    (h : c.change now p f = .ok c')
    (hks : ∀ k, k ∈ ks ↔ ∃ a, c.get? k = some a ∧ p (k, a)) (k : String) :
    if k ∈ ks then ∃ a b, (c.get? k).map f = some a ∧ touch (now k) a = .ok b ∧ c'.get? k = some b
    else c'.get? k = c.get? k := by
  have hrel := Collection.get?_change (k := k) h
  split
  · next hk =>
    obtain ⟨a, ha, hp⟩ := (hks k).mp hk
    rw [ha] at hrel
    obtain ⟨b, hb, hab⟩ := hrel.of_some
    rw [Collection.changeIf, if_pos hp] at hab
    exact ⟨f a, b, by rw [ha]; rfl, hab, hb⟩
  · next hk =>
    cases ha : c.get? k with
    | none =>
      rw [ha] at hrel
      cases hb : c'.get? k with
      | none => rfl
      | some b =>
        rw [hb] at hrel
        cases hrel
    | some a =>
      rw [ha] at hrel
      obtain ⟨b, hb, hab⟩ := hrel.of_some
      have hp : ¬ p (k, a) = true := fun hp => hk ((hks k).mpr ⟨a, ha, hp⟩)
      rw [Collection.changeIf, if_neg hp] at hab
      rw [hb, ← Except.ok.inj hab]

omit [Document α] in
/-- The key of a document that is there is the only one an update finds. -/
theorem mem_key_iff {key : String} {a : α} (ha : c.get? key = some a) (k : String) :
    k ∈ [key] ↔ ∃ b, c.get? k = some b ∧ decide (k = key) := by
  simp only [List.mem_singleton, decide_eq_true_eq]
  constructor
  · rintro rfl
    exact ⟨a, ha, rfl⟩
  · rintro ⟨_, -, hk⟩
    exact hk

/-- **A call that goes through** touches what it makes of the documents it
writes, and no others. -/
theorem touched_of_run (h : call.run now c = .ok c') (k : String) :
    if k ∈ call.written c then
      ∃ a b, call.edit (c.get? k) = some a ∧ touch (now k) a = .ok b ∧ c'.get? k = some b
    else c'.get? k = c.get? k := by
  cases call with
  | insert a =>
    rw [run, Collection.insert] at h
    split at h
    · cases h
    · next hfree =>
      obtain ⟨b, hb, h⟩ := bind_eq_ok.mp h
      obtain rfl := pure_eq_ok.mp h
      rw [written, if_neg hfree, Collection.get?_set]
      by_cases hk : k = Document.key a
      · rw [if_pos (List.mem_singleton.mpr hk), if_pos hk]
        exact ⟨a, b, rfl, hk ▸ hb, rfl⟩
      · rw [if_neg (fun hmem => hk (List.mem_singleton.mp hmem)), if_neg hk]
  | update key f =>
    rw [run, Collection.update] at h
    split at h
    · next hkey =>
      obtain ⟨a, ha⟩ := Collection.contains_iff.mp hkey
      rw [written, if_pos hkey]
      exact touched_of_change h (mem_key_iff ha) k
    · cases h
  | updateFirst p f =>
    obtain ⟨found, hfound, rfl⟩ := map_eq_ok.mp h
    rw [Collection.updateFirst] at hfound
    rw [written]
    split at hfound
    · next hnone =>
      obtain rfl := Except.ok.inj hfound
      rw [hnone, if_neg (by simp)]
      rfl
    · next e he =>
      obtain ⟨c', hc', rfl⟩ := map_eq_ok.mp hfound
      have hget : c.get? e.1 = some e.2 :=
        Collection.get?_eq_some_iff.mpr (List.mem_of_find?_eq_some he)
      rw [he]
      exact touched_of_change hc' (mem_key_iff hget) k
  | updateMany p f =>
    rw [written]
    refine touched_of_change h (fun k => ?_) k
    simp only [List.mem_map, List.mem_filter, Collection.get?_eq_some_iff]
    constructor
    · rintro ⟨e, ⟨he, hp⟩, rfl⟩
      exact ⟨e.2, he, hp⟩
    · rintro ⟨a, ha, hp⟩
      exact ⟨(k, a), ⟨ha, hp⟩, rfl⟩
  | updateIfUnchanged key watermark f =>
    rw [run, Collection.updateIfUnchanged] at h
    split at h
    · cases h
    · next a ha =>
      split at h
      · next hsame =>
        rw [Collection.update, if_pos (Collection.contains_iff.mpr ⟨a, ha⟩)] at h
        rw [written, ha, Option.map_some, if_pos (congrArg some hsame)]
        exact touched_of_change h (mem_key_iff ha) k
      · cases h

/-- What a call makes of a document that has room has room. -/
theorem Fits.room_edit {o : Option α} {a : α} (hfits : call.Fits n now)
    (ho : ∀ d, o = some d → n ≤ (Document.updatedAt d).room) (ha : call.edit o = some a) :
    n ≤ (Document.updatedAt a).room := by
  have hmap : ∀ f : α → α, (∀ d, Document.updatedAt (f d) = Document.updatedAt d) →
      o.map f = some a → n ≤ (Document.updatedAt a).room := by
    intro f hf ha
    obtain ⟨d, hd, rfl⟩ := Option.map_eq_some_iff.mp ha
    rw [hf]
    exact ho d hd
  have hleaves := hfits.leaves
  cases call with
  | insert b =>
    obtain rfl := Option.some.inj ha
    exact hfits.brought b rfl
  | update key f => exact hmap f hleaves ha
  | updateFirst p f => exact hmap f hleaves ha
  | updateMany p f => exact hmap f hleaves ha
  | updateIfUnchanged key watermark f => exact hmap f hleaves ha

/-- **A call with room goes through, or it finds nothing to write.** -/
theorem exists_run_or_idle (hfits : call.Fits (n + 1) now) (hc : c.HasRoom (n + 1)) :
    (∃ c', call.run now c = .ok c') ∨ call.written c = [] := by
  have hleaves := hfits.leaves
  -- What is there has room also after the function of the call.
  have hroom : ∀ f : α → α, (∀ d, Document.updatedAt (f d) = Document.updatedAt d) →
      ∀ k a, c.get? k = some a → 0 < (Document.updatedAt (f a)).room := by
    intro f hf k a ha
    have hpos := hc k a ha
    rw [hf]
    omega
  cases call with
  | insert a =>
    by_cases hkey : c.contains (Document.key a)
    · exact .inr (if_pos hkey)
    · have hpos := hfits.brought a rfl
      exact .inl (Collection.exists_insert (Collection.not_contains_iff.mp hkey) (by omega))
  | update key f =>
    by_cases hkey : c.contains key
    · obtain ⟨a, ha⟩ := Collection.contains_iff.mp hkey
      exact .inl (Collection.exists_update ha (hroom f hleaves key a ha))
    · exact .inr (if_neg hkey)
  | updateFirst p f =>
    left
    rw [run, Collection.updateFirst]
    split
    · exact ⟨c, rfl⟩
    · obtain ⟨c', hc'⟩ := @Collection.exists_change _ _ c now f _
        fun k a ha _ => hroom f hleaves k a ha
      rw [hc']
      exact ⟨c', rfl⟩
  | updateMany p f =>
    exact .inl (Collection.exists_change fun k a ha _ => hroom f hleaves k a ha)
  | updateIfUnchanged key watermark f =>
    by_cases hsame : (c.get? key).map Document.updatedAt = some watermark
    · obtain ⟨a, ha, hw⟩ := Option.map_eq_some_iff.mp hsame
      left
      rw [run, Collection.updateIfUnchanged, ha]
      simp only [hw, if_true]
      exact Collection.exists_update ha (hroom f hleaves key a ha)
    · exact .inr (if_neg hsame)

theorem after_of_run (h : call.run now c = .ok c') : call.after now c = c' := by
  rw [after, h]

theorem after_of_error {r : Refusal} (h : call.run now c = .error r) : call.after now c = c := by
  rw [after, h]

/-- The same of the collection after a call with room. -/
theorem touched_after (hfits : call.Fits (n + 1) now) (hc : c.HasRoom (n + 1)) (k : String) :
    if k ∈ call.written c then
      ∃ a b, call.edit (c.get? k) = some a ∧ touch (now k) a = .ok b ∧
        (call.after now c).get? k = some b
    else (call.after now c).get? k = c.get? k := by
  cases hrun : call.run now c with
  | ok c' =>
    rw [after_of_run hrun]
    exact touched_of_run hrun k
  | error r =>
    have hidle : call.written c = [] := by
      rcases exists_run_or_idle hfits hc with ⟨c', hc'⟩ | hidle
      · cases hrun.symm.trans hc'
      · exact hidle
    rw [after_of_error hrun, hidle, if_neg List.not_mem_nil]

/-- **A call takes one microsecond of the room.** -/
theorem hasRoom_after (hfits : call.Fits (n + 1) now) (hc : c.HasRoom (n + 1)) :
    (call.after now c).HasRoom n := by
  intro k b hb
  have htouched := touched_after hfits hc k
  split at htouched
  · obtain ⟨a, b', ha, hab, hb'⟩ := htouched
    obtain rfl := Option.some.inj (hb'.symm.trans hb)
    have hroom : n + 1 ≤ (Document.updatedAt a).room :=
      hfits.room_edit (fun d hd => hc k d hd) ha
    exact le_room_touch hab (Nat.le_of_succ_le (hfits.clock k)) hroom
  · rw [htouched] at hb
    exact Nat.le_of_succ_le (hc k b hb)

/-- What a call makes of a document that is there has the watermark that the
document has, unless the call brings in its own. -/
theorem updatedAt_edit {d a : α} (hleaves : call.LeavesWatermarks)
    (hold : ∀ b, call ≠ .insert b) (ha : call.edit (some d) = some a) :
    Document.updatedAt a = Document.updatedAt d := by
  cases call with
  | insert b => exact absurd rfl (hold b)
  | update key f => cases ha; exact hleaves d
  | updateFirst p f => cases ha; exact hleaves d
  | updateMany p f => cases ha; exact hleaves d
  | updateIfUnchanged key watermark f => cases ha; exact hleaves d

/-- An insertion writes under a free key. -/
theorem get?_of_mem_written_insert {a : α} (h : k ∈ (Call.insert a).written c) :
    c.get? k = none := by
  rw [written] at h
  split at h
  · cases h
  · next hfree =>
    rw [List.mem_singleton.mp h]
    exact Collection.not_contains_iff.mp hfree

/-- **A call moves the watermark of each document it writes forward, and
leaves all other documents as they were.** -/
theorem writes_after (hfits : call.Fits (n + 1) now) (hc : c.HasRoom (n + 1)) (k : String) :
    if k ∈ call.written c then call.Wrote c (call.after now c) k
    else (call.after now c).get? k = c.get? k := by
  have htouched := touched_after hfits hc k
  split
  · next hk =>
    rw [if_pos hk] at htouched
    obtain ⟨a, b, ha, hab, hb⟩ := htouched
    have hlt := updatedAt_lt_touch hab
    obtain ⟨t, -, rfl⟩ := of_touch hab
    refine ⟨a, _, ha, hb, by rw [Document.updatedAt_stamp], hlt, fun d hd => ?_⟩
    have hold : ∀ b, call ≠ .insert b := by
      rintro b rfl
      rw [get?_of_mem_written_insert hk] at hd
      cases hd
    rw [hd] at ha
    rw [← updatedAt_edit hfits.leaves hold ha]
    exact hlt
  · next hk =>
    rw [if_neg hk] at htouched
    exact htouched

end Collection.Call

/-! ## A sequence of calls -/

namespace Collection

variable {α : Type} [Document α] {c : Collection α} {calls : List (Readings × Call α)}
  {now : Readings} {call : Call α} {f : α → α} {a b : α} {k key : String} {i j : Nat}

/-- **The collection after the first `i` calls** of a sequence, each with its
readings of the clock. -/
def moment (c : Collection α) (calls : List (Readings × Call α)) (i : Nat) : Collection α :=
  (calls.take i).foldl (fun c s => s.2.after s.1 c) c

@[simp] theorem moment_zero : c.moment calls 0 = c := rfl

theorem moment_succ (h : calls[i]? = some (now, call)) :
    c.moment calls (i + 1) = call.after now (c.moment calls i) := by
  rw [moment, List.take_add_one, h, Option.toList_some, List.foldl_append]
  rfl

/-- Past its end a sequence does nothing. -/
theorem moment_succ_of_none (h : calls[i]? = none) :
    c.moment calls (i + 1) = c.moment calls i := by
  rw [moment, List.take_add_one, h, Option.toList_none, List.append_nil]
  rfl

/-- **Some call between two moments wrote under a key.** -/
def WrittenBetween (c : Collection α) (calls : List (Readings × Call α)) (k : String)
    (i j : Nat) : Prop :=
  ∃ m s, i ≤ m ∧ m < j ∧ calls[m]? = some s ∧ k ∈ s.2.written (c.moment calls m)

/-- **The calendar does not end within a sequence of calls.** -/
structure Lasts (c : Collection α) (calls : List (Readings × Call α)) : Prop where
  room : c.HasRoom calls.length
  fits : ∀ s ∈ calls, s.2.Fits calls.length s.1

namespace Lasts

/-- Each call so far took one microsecond of the room. -/
theorem hasRoom (h : c.Lasts calls) (hi : i ≤ calls.length) :
    (c.moment calls i).HasRoom (calls.length - i) := by
  induction i with
  | zero => exact h.room
  | succ i ih =>
    have hlt : i < calls.length := hi
    have hget : calls[i]? = some calls[i] := List.getElem?_eq_getElem hlt
    have hleft : calls.length - i = calls.length - (i + 1) + 1 := by omega
    have hroom := ih (by omega)
    have hfits := (h.fits _ (List.getElem_mem hlt)).mono (Nat.sub_le _ i)
    rw [hleft] at hroom hfits
    rw [moment_succ hget]
    exact Call.hasRoom_after hfits hroom

/-- Every call of the sequence has room for itself. -/
theorem fits_at (h : c.Lasts calls) (hs : calls[i]? = some (now, call)) :
    ∃ n, call.Fits (n + 1) now ∧ (c.moment calls i).HasRoom (n + 1) := by
  obtain ⟨hlt, hget⟩ := List.getElem?_eq_some_iff.mp hs
  have hfits := h.fits (now, call) (hget ▸ List.getElem_mem hlt)
  have hroom := h.hasRoom (Nat.le_of_lt hlt)
  exact ⟨calls.length - i - 1, hfits.mono (by omega), hroom.mono (by omega)⟩

/-- **From one moment to a later one** a document stays, with a later
watermark if a call in between wrote it, and as it was if none did. -/
theorem persists (h : c.Lasts calls) (hij : i ≤ j) (ha : (c.moment calls i).get? k = some a) :
    ∃ b, (c.moment calls j).get? k = some b ∧
      (c.WrittenBetween calls k i j → Document.updatedAt a < Document.updatedAt b) ∧
      (¬ c.WrittenBetween calls k i j → b = a) := by
  induction hij with
  | refl =>
    refine ⟨a, ha, ?_, fun _ => rfl⟩
    rintro ⟨m, s, him, hmi, -⟩
    omega
  | @step j hij ih =>
    obtain ⟨b, hb, hlater, hsame⟩ := ih
    -- What was written before the last call was written between.
    have hmono : c.WrittenBetween calls k i j → c.WrittenBetween calls k i (j + 1) := by
      rintro ⟨m, s, him, hmj, hs, hk⟩
      exact ⟨m, s, him, by omega, hs, hk⟩
    cases hs : calls[j]? with
    | none =>
      have hsplit : c.WrittenBetween calls k i (j + 1) → c.WrittenBetween calls k i j := by
        rintro ⟨m, s, him, hmj, hm, hk⟩
        have hne : m ≠ j := by
          rintro rfl
          rw [hs] at hm
          cases hm
        exact ⟨m, s, him, by omega, hm, hk⟩
      rw [moment_succ_of_none hs]
      exact ⟨b, hb, fun hw => hlater (hsplit hw), fun hw => hsame fun hw' => hw (hmono hw')⟩
    | some s =>
      obtain ⟨n, hfits, hroom⟩ := h.fits_at hs
      have hwrites := Call.writes_after hfits hroom k
      rw [moment_succ hs]
      by_cases hk : k ∈ s.2.written (c.moment calls j)
      · rw [if_pos hk] at hwrites
        obtain ⟨-, b', -, hb', -, -, hlt⟩ := hwrites
        have hnow : c.WrittenBetween calls k i (j + 1) :=
          ⟨j, s, hij, Nat.lt_succ_self j, hs, hk⟩
        refine ⟨b', hb', fun _ => ?_, fun hw => absurd hnow hw⟩
        by_cases hw : c.WrittenBetween calls k i j
        · exact Instant.lt_trans (hlater hw) (hlt b hb)
        · rw [← hsame hw]
          exact hlt b hb
      · rw [if_neg hk] at hwrites
        have hsplit : c.WrittenBetween calls k i (j + 1) → c.WrittenBetween calls k i j := by
          rintro ⟨m, s', him, hmj, hm, hk'⟩
          have hne : m ≠ j := by
            rintro rfl
            rw [hs] at hm
            obtain rfl := Option.some.inj hm
            exact hk hk'
          exact ⟨m, s', him, by omega, hm, hk'⟩
        refine ⟨b, hwrites.trans hb, fun hw => hlater (hsplit hw), fun hw => hsame fun hw' => ?_⟩
        exact hw (hmono hw')

/-- **At two moments the same watermark under a key means the same
document.** -/
theorem eq_of_updatedAt (h : c.Lasts calls) (ha : (c.moment calls i).get? k = some a)
    (hb : (c.moment calls j).get? k = some b)
    (hsame : Document.updatedAt a = Document.updatedAt b) : a = b := by
  have hforward : ∀ {i j a b}, i ≤ j → (c.moment calls i).get? k = some a →
      (c.moment calls j).get? k = some b → Document.updatedAt a = Document.updatedAt b →
      a = b := by
    intro i j a b hij ha hb hsame
    obtain ⟨b', hb', hlater, hunwritten⟩ := h.persists hij ha
    obtain rfl := Option.some.inj (hb'.symm.trans hb)
    have hw : ¬ c.WrittenBetween calls k i j := by
      intro hw
      have hlt := hlater hw
      rw [hsame] at hlt
      exact Instant.lt_irrefl _ hlt
    exact (hunwritten hw).symm
  rcases Nat.le_total i j with hij | hji
  · exact hforward hij ha hb hsame
  · exact (hforward hji hb ha hsame.symm).symm

/-- **A conditional update** with a watermark that was read earlier goes
through if no call in between wrote the document. -/
theorem run_of_not_written (h : c.Lasts calls) (hij : i ≤ j)
    (ha : (c.moment calls i).get? key = some a)
    (hs : calls[j]? = some (now, .updateIfUnchanged key (Document.updatedAt a) f))
    (hw : ¬ c.WrittenBetween calls key i j) :
    (Call.updateIfUnchanged key (Document.updatedAt a) f).run now (c.moment calls j) =
      .ok (c.moment calls (j + 1)) := by
  obtain ⟨b, hb, -, hunwritten⟩ := h.persists hij ha
  rw [hunwritten hw] at hb
  obtain ⟨n, hfits, hroom⟩ := h.fits_at hs
  have hfound : key ∈ (Call.updateIfUnchanged key (Document.updatedAt a) f).written
      (c.moment calls j) := by
    rw [Call.written, hb, Option.map_some, if_pos rfl]
    exact List.mem_singleton_self key
  rcases Call.exists_run_or_idle hfits hroom with ⟨c', hc'⟩ | hidle
  · rw [hc', moment_succ hs, Call.after_of_run hc']
  · rw [hidle] at hfound
    cases hfound

/-- And it is a conflict, which leaves everything as it is, if some call in
between did. -/
theorem run_of_written (h : c.Lasts calls) (hij : i ≤ j)
    (ha : (c.moment calls i).get? key = some a)
    (hs : calls[j]? = some (now, .updateIfUnchanged key (Document.updatedAt a) f))
    (hw : c.WrittenBetween calls key i j) :
    (Call.updateIfUnchanged key (Document.updatedAt a) f).run now (c.moment calls j) =
        .error (.store (.conflict (Document.collection α) key)) ∧
      c.moment calls (j + 1) = c.moment calls j := by
  obtain ⟨b, hb, hlater, -⟩ := h.persists hij ha
  have hne : Document.updatedAt b ≠ Document.updatedAt a := by
    intro heq
    have hlt := hlater hw
    rw [heq] at hlt
    exact Instant.lt_irrefl _ hlt
  have hconflict :
      (Call.updateIfUnchanged key (Document.updatedAt a) f).run now (c.moment calls j) =
        .error (.store (.conflict (Document.collection α) key)) := by
    rw [Call.run, updateIfUnchanged, hb]
    simp only [hne, if_false]
  exact ⟨hconflict, by rw [moment_succ hs, Call.after_of_error hconflict]⟩

end Lasts

/-- **What the watermarks of a collection tell** over a sequence of calls. -/
structure Watched (c : Collection α) (calls : List (Readings × Call α)) : Prop where
  /-- Each call moves forward the watermarks of what it writes, and of nothing
  else. -/
  writes : ∀ i s, calls[i]? = some s → ∀ k,
    if k ∈ s.2.written (c.moment calls i) then
      s.2.Wrote (c.moment calls i) (c.moment calls (i + 1)) k
    else (c.moment calls (i + 1)).get? k = (c.moment calls i).get? k
  /-- A watermark under a key is that of one document. -/
  identical : ∀ i j k a b, (c.moment calls i).get? k = some a →
    (c.moment calls j).get? k = some b → Document.updatedAt a = Document.updatedAt b → a = b
  /-- A conditional update goes through if nobody wrote the document. -/
  swaps : ∀ i j now key f a, i ≤ j → (c.moment calls i).get? key = some a →
    calls[j]? = some (now, .updateIfUnchanged key (Document.updatedAt a) f) →
    ¬ c.WrittenBetween calls key i j →
    (Call.updateIfUnchanged key (Document.updatedAt a) f).run now (c.moment calls j) =
      .ok (c.moment calls (j + 1))
  /-- It is a conflict if somebody did, and leaves the collection. -/
  conflicts : ∀ i j now key f a, i ≤ j → (c.moment calls i).get? key = some a →
    calls[j]? = some (now, .updateIfUnchanged key (Document.updatedAt a) f) →
    c.WrittenBetween calls key i j →
    (Call.updateIfUnchanged key (Document.updatedAt a) f).run now (c.moment calls j) =
        .error (.store (.conflict (Document.collection α) key)) ∧
      c.moment calls (j + 1) = c.moment calls j

/-- **Watermarks are sound.** Over any sequence of calls that leave them to
the collection, with any readings of the clock, a call moves forward the
watermarks of exactly what it writes; so a watermark under a key is that of
one document, and a conditional update succeeds if and only if nobody wrote
the document since its watermark was read. -/
theorem watched_of_lasts (h : c.Lasts calls) : c.Watched calls where
  writes i s hs k := by
    obtain ⟨n, hfits, hroom⟩ := h.fits_at hs
    rw [moment_succ hs]
    exact Call.writes_after hfits hroom k
  identical _ _ _ _ _ ha hb hsame := h.eq_of_updatedAt ha hb hsame
  swaps _ _ _ _ _ _ hij ha hs hw := h.run_of_not_written hij ha hs hw
  conflicts _ _ _ _ _ _ hij ha hs hw := h.run_of_written hij ha hs hw

/-- The start of a second. -/
def second (n : Int) : Instant := { Instant.epoch with seconds := n }

/-- An asset that is written over and over. -/
def sampleAsset : Asset where
  id := "a"
  ownerId := "owner"
  status := .opened
  custody := .fractor
  updatedAt := second 100

/-- A conditional update with the watermark that the asset had at first. -/
def sampleSwap : Call Asset :=
  .updateIfUnchanged "a" sampleAsset.updatedAt fun a => { a with status := .redeemed }

/-- What a clock shows that is set back by minutes while two assets are
written. -/
def setBack (k : String) : Instant := if k = "a" then second 300 else second 40

/-- Another asset comes in, and both are written at once before the first one is
to be swapped; then the other one is swapped. The clock goes back all the time,
also from one of the two assets to the other. -/
def sampleCalls : List (Readings × Call Asset) :=
  [(second 50, .insert { sampleAsset with id := "b" }),
    (setBack, .updateMany (fun _ => true) fun a => { a with status := .iaoApproved }),
    (second 35, sampleSwap),
    (second 30, .updateIfUnchanged "b"
      (((second 100).succMicro?.bind Instant.succMicro?).getD .epoch) fun a =>
        { a with custody := .frac })]

/-- The swap of the written asset is a conflict, that of the other one goes
through. -/
theorem watched_sampleCalls :
    (ofList [sampleAsset]).Watched sampleCalls ∧
      sampleSwap.run (second 35) ((ofList [sampleAsset]).moment sampleCalls 2) =
        .error (.store (.conflict "assets" "a")) ∧
      (((ofList [sampleAsset]).moment sampleCalls 4).get? "b").map (·.custody) = some .frac := by
  have hback : ∀ k, 4 ≤ (setBack k).room := by
    intro k
    unfold setBack
    split <;> decide
  have hlasts : (ofList [sampleAsset]).Lasts sampleCalls := by
    constructor
    · intro k a ha
      have hmem : (k, a) ∈ [("a", sampleAsset)] := get?_eq_some_iff.mp ha
      obtain ⟨rfl, rfl⟩ := Prod.mk.inj (List.mem_singleton.mp hmem)
      decide
    · intro s hs
      simp only [sampleCalls, List.mem_cons, List.not_mem_nil, or_false] at hs
      rcases hs with rfl | rfl | rfl | rfl
      · exact ⟨trivial, fun _ => show 4 ≤ (second 50).room by decide, by rintro _ ⟨⟩; decide⟩
      · exact ⟨fun _ => rfl, hback, nofun⟩
      · exact ⟨fun _ => rfl, fun _ => show 4 ≤ (second 35).room by decide, nofun⟩
      · exact ⟨fun _ => rfl, fun _ => show 4 ≤ (second 30).room by decide, nofun⟩
  have hwatched := watched_of_lasts hlasts
  have hwritten : (ofList [sampleAsset]).WrittenBetween sampleCalls "a" 0 2 :=
    ⟨1, _, by decide, by decide, rfl, by decide⟩
  exact ⟨hwatched,
    (hwatched.conflicts 0 2 _ _ _ sampleAsset (by decide) (by decide) rfl hwritten).1, by decide⟩

end Collection

end ChainLedger
