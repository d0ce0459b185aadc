import ChainLedger.Ledger.Ledgers
import Mathlib.Data.List.Nodup

/-!
# What a lookup sees after a write

A write to a collection is described by its lookups. An insertion sets one
free key (`get?_insert`), an update relates the document under every key to
the one that was there before (`get?_update`, `get?_updateMany`), and a
document that is touched is stamped with a later watermark (`of_touch`).
Whatever else is proved about writes follows from these; nothing opens the
entries of a collection again.
-/

namespace ChainLedger

/-! ## Results that may be refusals -/

section Refusals

variable {ε ε' α β : Type}

theorem ok_bind {a : α} {f : α → Except ε β} : (.ok a : Except ε α) >>= f = f a := rfl

/-- A sequence has a result when both of its steps have one. -/
theorem bind_eq_ok {x : Except ε α} {f : α → Except ε β} {b : β} :
    x >>= f = .ok b ↔ ∃ a, x = .ok a ∧ f a = .ok b := by
  cases x with
  | ok a =>
    constructor
    · intro h
      exact ⟨a, rfl, h⟩
    · rintro ⟨_, h, h'⟩
      cases h
      exact h'
  | error e => exact ⟨nofun, nofun⟩

theorem pure_eq_ok {a b : α} : (pure a : Except ε α) = .ok b ↔ a = b := by
  simp [pure, Except.pure]

theorem map_eq_ok {x : Except ε α} {f : α → β} {b : β} :
    x.map f = .ok b ↔ ∃ a, x = .ok a ∧ f a = b := by
  cases x <;> simp [Except.map]

theorem mapError_eq_ok {x : Except ε α} {f : ε → ε'} {a : α} :
    x.mapError f = .ok a ↔ x = .ok a := by
  cases x <;> simp [Except.mapError]

/-- A condition that was required holds. -/
theorem require_eq_ok {p : Prop} [Decidable p] {r : Refusal} {u : Unit} :
    require p r = .ok u ↔ p := by
  by_cases h : p <;> simp [require, h]

theorem require_bind_of {p : Prop} [Decidable p] {r : Refusal} {f : Unit → Except Refusal β}
    (h : p) : require p r >>= f = f () := by
  rw [require, if_pos h]
  rfl

theorem require_bind_of_not {p : Prop} [Decidable p] {r : Refusal} {f : Unit → Except Refusal β}
    (h : ¬ p) : require p r >>= f = .error r := by
  rw [require, if_neg h]
  rfl

/-- What was asked for is there. -/
theorem orRefuse_eq_ok {r : Refusal} {o : Option α} {a : α} :
    orRefuse r o = .ok a ↔ o = some a := by
  cases o <;> simp [orRefuse]

theorem orRefuse_some_bind {r : Refusal} {a : α} {f : α → Except Refusal β} :
    orRefuse r (some a) >>= f = f a := rfl

/-- An operation that may leave the range did not. -/
theorem orOverflow_eq_ok {b : Balance} {o : Option Decimal} {d : Decimal} :
    orOverflow b o = .ok d ↔ o = some d := by
  cases o <;> simp [orOverflow]

/-- An operation whose result was taken to exist has one. -/
theorem trapped_eq_ok {x : Except Trap α} {a : α} : trapped x = .ok a ↔ x = .ok a :=
  mapError_eq_ok

/-- A difference that was taken to exist is the partial one. -/
theorem Decimal.sub_eq_ok {a b d : Decimal} : a.sub b = .ok d ↔ a.sub? b = some d := by
  unfold Decimal.sub
  cases a.sub? b <;> simp

end Refusals

/-! ## Touching -/

section Touching

variable {α : Type} [Document α] {now : Instant} {a b : α}

/-- **A document that is touched** is stamped with a later watermark, and is
otherwise as it was. -/
theorem of_touch (h : touch now a = .ok b) :
    ∃ t, Document.updatedAt a < t ∧ b = Document.stamp t a := by
  have hlt := updatedAt_lt_touch h
  unfold touch at h
  split at h
  · cases h
    rw [Document.updatedAt_stamp] at hlt
    exact ⟨_, hlt, rfl⟩
  · cases h

end Touching

namespace Collection

variable {α : Type} {c c' : Collection α} {k key : String} {a b : α}

/-! ## Lookups -/

theorem contains_iff : c.contains k = true ↔ ∃ a, c.get? k = some a :=
  Option.isSome_iff_exists

theorem not_contains_iff : ¬ c.contains k = true ↔ c.get? k = none := by
  simp [contains]

@[simp] theorem get?_empty : (empty : Collection α).get? k = none := rfl

/-- No two entries share a key. -/
theorem eq_of_mem_entries {e e' : String × α} (he : e ∈ c.entries) (he' : e' ∈ c.entries)
    (hk : e.1 = e'.1) : e = e' :=
  have hnodup : (c.entries.map Prod.fst).Nodup := c.sorted.imp String.ne_of_lt
  List.inj_on_of_nodup_map hnodup he he' hk

/-- A lookup finds the entry of its key. -/
theorem get?_eq_some_iff : c.get? k = some a ↔ (k, a) ∈ c.entries := by
  unfold get?
  rw [Option.map_eq_some_iff]
  constructor
  · rintro ⟨e, he, rfl⟩
    have hk : e.1 = k := by simpa using List.find?_some he
    exact hk ▸ List.mem_of_find?_eq_some he
  · intro hmem
    have hsome : (c.entries.find? (·.1 = k)).isSome := by
      rw [List.find?_isSome]
      exact ⟨(k, a), hmem, by simp⟩
    obtain ⟨e, he⟩ := Option.isSome_iff_exists.mp hsome
    have hk : e.1 = k := by simpa using List.find?_some he
    refine ⟨e, he, ?_⟩
    rw [eq_of_mem_entries (List.mem_of_find?_eq_some he) hmem hk]

/-- The documents are those that lookups find. -/
theorem mem_toList : a ∈ c.toList ↔ ∃ k, c.get? k = some a := by
  simp only [toList, List.mem_map, get?_eq_some_iff]
  constructor
  · rintro ⟨e, he, rfl⟩
    exact ⟨e.1, he⟩
  · rintro ⟨k, hk⟩
    exact ⟨(k, a), hk, rfl⟩

/-! ## Inserting -/

/-- The first entry under a key after one was placed. -/
theorem find?_place (es : List (String × α)) :
    (place key a es).find? (·.1 = k) =
      if k = key then some (key, a) else es.find? (·.1 = k) := by
  induction es with
  | nil =>
    by_cases h : k = key
    · simp [place, h]
    · simp [place, h, Ne.symm h]
  | cons e es ih =>
    unfold place
    -- The new entry goes before the first one with a greater key, or in place of one with its own.
    by_cases hlt : key < e.1
    · rw [if_pos hlt]
      by_cases h : k = key
      · simp [h]
      · simp [h, Ne.symm h]
    · rw [if_neg hlt]
      by_cases heq : key = e.1
      · rw [if_pos heq]
        by_cases h : k = key
        · simp [h]
        · have h' : ¬ e.1 = k := heq ▸ Ne.symm h
          simp [h, h', Ne.symm h]
      · rw [if_neg heq, List.find?_cons, ih, List.find?_cons]
        by_cases he : e.1 = k
        · have h : ¬ k = key := fun h => heq (h ▸ he.symm)
          simp [he, h]
        · simp [he]

/-- Setting a document changes one lookup. -/
theorem get?_set : (c.set key a).get? k = if k = key then some a else c.get? k := by
  unfold get? set
  rw [find?_place]
  split <;> rfl

variable [Document α] {now : Readings} {f : α → α}

/-- **An insertion** finds its key free and puts the touched document there. -/
theorem get?_insert (h : c.insert now a = .ok c') :
    c.get? (Document.key a) = none ∧ ∃ t, Document.updatedAt a < t ∧
      ∀ k, c'.get? k = if k = Document.key a then some (Document.stamp t a) else c.get? k := by
  unfold insert at h
  split at h
  · cases h
  · next hfree =>
    obtain ⟨b, hb, h⟩ := bind_eq_ok.mp h
    obtain ⟨t, ht, rfl⟩ := of_touch hb
    rw [← pure_eq_ok.mp h]
    exact ⟨not_contains_iff.mp hfree, t, ht, fun k => get?_set⟩

/-! ## Updating -/

/-- The entry under a key after some entries were changed. -/
theorem find?_changeAll {p : String × α → Bool} {es es' : List (String × α)}
    (h : changeAll now p f es = .ok es') :
    Option.Rel (fun a b => changeIf now p f (k, a) = .ok b)
      ((es.find? (·.1 = k)).map (·.2)) ((es'.find? (·.1 = k)).map (·.2)) := by
  induction es generalizing es' with
  | nil => cases h; exact .none
  | cons e es ih =>
    obtain ⟨b, hb, h⟩ := bind_eq_ok.mp h
    obtain ⟨rest, hrest, h⟩ := bind_eq_ok.mp h
    rw [← pure_eq_ok.mp h]
    by_cases he : e.1 = k
    · simpa [he] using (he ▸ hb : changeIf now p f (k, e.2) = .ok b)
    · simpa [he] using ih hrest

/-- Every document is changed if it fits, and the keys stay. -/
theorem get?_change {p : String × α → Bool} (h : c.change now p f = .ok c') :
    Option.Rel (fun a b => changeIf now p f (k, a) = .ok b) (c.get? k) (c'.get? k) := by
  unfold change at h
  split at h
  · next hes => cases h; exact find?_changeAll hes
  · cases h

/-- **An update** touches the document under its key, which must be there,
and no other. -/
theorem get?_update (h : c.update now key f = .ok c') :
    (∃ a, c.get? key = some a) ∧
      Option.Rel (fun a b => if k = key then touch (now k) (f a) = .ok b else b = a)
        (c.get? k) (c'.get? k) := by
  unfold update at h
  split at h
  · next hkey =>
    refine ⟨contains_iff.mp hkey, ?_⟩
    have hrel := get?_change (k := k) h
    by_cases hk : k = key <;> simpa [changeIf, hk, eq_comm] using hrel
  · cases h

/-- **An update of many** touches the documents that fit and no others. -/
theorem get?_updateMany {p : α → Bool} (h : c.updateMany now p f = .ok c') :
    Option.Rel (fun a b => if p a then touch (now k) (f a) = .ok b else b = a)
      (c.get? k) (c'.get? k) := by
  have hrel := get?_change (k := k) h
  generalize c.get? k = x, c'.get? k = y at hrel
  cases hrel with
  | none => exact .none
  | some hab =>
    refine .some ?_
    unfold changeIf at hab
    split at hab
    · next hp => simpa [hp] using hab
    · next hp => simpa [hp, eq_comm] using hab

end Collection

/-! ## Documents under their own keys -/

namespace Collection

variable {α : Type} [Document α] {c c' : Collection α} {a : α}

/-- Every document is under its own key. -/
def Keyed (c : Collection α) : Prop :=
  ∀ k a, c.get? k = some a → Document.key a = k

theorem keyed_empty : (empty : Collection α).Keyed := by
  intro k a h
  simp at h

theorem Keyed.set (h : c.Keyed) : (c.set (Document.key a) a).Keyed := by
  intro k b hb
  rw [get?_set] at hb
  split at hb
  · next hk => rw [← Option.some.inj hb, hk]
  · exact h k b hb

/-- **A collection made of documents** has each of them under its own key. -/
theorem keyed_ofList (as : List α) : (ofList as).Keyed := by
  have hfold : ∀ c : Collection α, c.Keyed →
      (as.foldl (fun c a => c.set (Document.key a) a) c).Keyed := by
    induction as with
    | nil => exact fun _ h => h
    | cons a as ih => exact fun c h => ih _ h.set
  exact hfold empty keyed_empty

end Collection

end ChainLedger
