import ChainLedger.Proofs.Ledger.Lookup

/-!
# Revisions of a collection

Two relations between a collection and a later one: every document is still
there and changed at most in some way (`Extends`), and beyond that none came
in (`Revises`). An update revises, and an insertion extends. Both come down to
what is under one key before and after, which `Option.Rel` relates.
-/

namespace Option

variable {α β γ : Type} {R : α → β → Prop} {S : β → γ → Prop} {T : α → γ → Prop}
  {x : Option α} {y : Option β} {z : Option γ} {a : α} {b : β}

theorem Rel.of_some (h : Rel R (.some a) y) : ∃ b, y = .some b ∧ R a b := by
  cases h with
  | some hab => exact ⟨_, rfl, hab⟩

theorem Rel.to_some (h : Rel R x (.some b)) : ∃ a, x = .some a ∧ R a b := by
  cases h with
  | some hab => exact ⟨_, rfl, hab⟩

/-- What is there on both sides is related. -/
theorem Rel.of_eq_some (h : Rel R x y) (hx : x = .some a) (hy : y = .some b) : R a b := by
  subst hx hy
  exact rel_some_some.mp h

/-- What is there is related to itself. -/
theorem Rel.self {R : α → α → Prop} (h : ∀ a, x = .some a → R a a) : Rel R x x := by
  cases x with
  | none => exact .none
  | some a => exact .some (h a rfl)

/-- What is related is related in other ways as well. -/
theorem Rel.imp {R' : α → β → Prop} (h : Rel R x y) (hR : ∀ a b, x = .some a → R a b → R' a b) :
    Rel R' x y := by
  cases h with
  | none => exact .none
  | some hab => exact .some (hR _ _ rfl hab)

/-- Relations compose. -/
theorem Rel.comp (h : Rel R x y) (h' : Rel S y z) (hT : ∀ a b c, R a b → S b c → T a c) :
    Rel T x z := by
  cases h with
  | none => cases h'; exact .none
  | some hab =>
    obtain ⟨c, rfl, hbc⟩ := h'.of_some
    exact .some (hT _ _ _ hab hbc)

/-- What the same is related to on two sides is related. -/
theorem Rel.span {S : α → γ → Prop} {T : β → γ → Prop} (h : Rel R x y) (h' : Rel S x z)
    (hT : ∀ a b c, R a b → S a c → T b c) : Rel T y z := by
  cases h with
  | none => cases h'; exact .none
  | some hab =>
    obtain ⟨c, rfl, hac⟩ := h'.of_some
    exact .some (hT _ _ _ hab hac)

end Option

namespace ChainLedger

namespace Collection

variable {α : Type} {R S : α → α → Prop} {c c' c'' : Collection α} {k key : String} {a b : α}

/-- **Every document is still there**, changed at most as `R` allows. -/
def Extends (R : α → α → Prop) (c c' : Collection α) : Prop :=
  ∀ k a, c.get? k = some a → ∃ b, c'.get? k = some b ∧ R a b

/-- Every document is still there, changed at most as `R` allows, and **no
document came in**. -/
structure Revises (R : α → α → Prop) (c c' : Collection α) : Prop where
  still : Extends R c c'
  none : ∀ k, c.get? k = none → c'.get? k = none

theorem Extends.refl (hR : ∀ a, R a a) : Extends R c c :=
  fun _ a h => ⟨a, h, hR a⟩

theorem Extends.trans (hR : ∀ {x y z}, R x y → R y z → R x z) (h : Extends R c c')
    (h' : Extends R c' c'') : Extends R c c'' := by
  intro k a ha
  obtain ⟨b, hb, hab⟩ := h k a ha
  obtain ⟨d, hd, hbd⟩ := h' k b hb
  exact ⟨d, hd, hR hab hbd⟩

theorem Revises.refl (hR : ∀ a, R a a) : Revises R c c :=
  ⟨.refl hR, fun _ h => h⟩

theorem Revises.trans (hR : ∀ {x y z}, R x y → R y z → R x z) (h : Revises R c c')
    (h' : Revises R c' c'') : Revises R c c'' :=
  ⟨h.still.trans hR h'.still, fun k hk => h'.none k (h.none k hk)⟩

/-- What is there was there before. -/
theorem Revises.before (h : Revises R c c') (hb : c'.get? k = some b) :
    ∃ a, c.get? k = some a ∧ R a b := by
  cases ha : c.get? k with
  | none => rw [h.none k ha] at hb; cases hb
  | some a =>
    obtain ⟨b', hb', hab⟩ := h.still k a ha
    obtain rfl := Option.some.inj (hb.symm.trans hb')
    exact ⟨a, rfl, hab⟩

/-- What is there is related to what was there. -/
theorem Revises.of_get? (h : Revises R c c') (ha : c.get? k = some a) (hb : c'.get? k = some b) :
    R a b := by
  obtain ⟨b', hb', hab⟩ := h.still k a ha
  rwa [Option.some.inj (hb.symm.trans hb')]

/-- A revision relates the lookups key by key. -/
theorem Revises.rel (h : Revises R c c') (k : String) :
    Option.Rel R (c.get? k) (c'.get? k) := by
  cases ha : c.get? k with
  | none =>
    rw [h.none k ha]
    exact .none
  | some a =>
    obtain ⟨b, hb, hab⟩ := h.still k a ha
    rw [hb]
    exact .some hab

/-- Lookups that are related key by key make a revision. -/
theorem Revises.of_rel (h : ∀ k, Option.Rel R (c.get? k) (c'.get? k)) : Revises R c c' := by
  constructor
  · intro k a ha
    exact (ha ▸ h k : Option.Rel R (some a) (c'.get? k)).of_some
  · intro k ha
    cases hb : c'.get? k with
    | none => rfl
    | some b =>
      obtain ⟨a, ha', -⟩ := (hb ▸ h k : Option.Rel R (c.get? k) (some b)).to_some
      rw [ha] at ha'
      cases ha'

variable [Document α] {now : Readings} {f : α → α}

/-- An update stamps what it writes under its key, later than it was, and
leaves all else. -/
theorem rel_update (h : c.update now key f = .ok c') (k : String) :
    Option.Rel (fun a b =>
      if key = k then ∃ t, Document.updatedAt (f a) < t ∧ b = Document.stamp t (f a) else b = a)
      (c.get? k) (c'.get? k) := by
  refine (get?_update (k := k) h).2.imp fun a b _ hab => ?_
  by_cases hk : key = k
  · rw [if_pos hk.symm] at hab
    rw [if_pos hk]
    exact of_touch hab
  · rw [if_neg (Ne.symm hk)] at hab
    rw [if_neg hk]
    exact hab

/-- An update of many stamps the documents that fit, later than they were, and
leaves all else. -/
theorem rel_updateMany {p : α → Bool} (h : c.updateMany now p f = .ok c') (k : String) :
    Option.Rel (fun a b =>
      if p a then ∃ t, Document.updatedAt (f a) < t ∧ b = Document.stamp t (f a) else b = a)
      (c.get? k) (c'.get? k) := by
  refine (get?_updateMany (k := k) h).imp fun a b _ hab => ?_
  by_cases hp : p a
  · rw [if_pos hp] at hab ⊢
    exact of_touch hab
  · rw [if_neg hp] at hab ⊢
    exact hab

/-- An update finds the document under its key and stamps it. -/
theorem get?_update_self (h : c.update now key f = .ok c') (ha : c.get? key = some a) :
    ∃ t, c'.get? key = some (Document.stamp t (f a)) := by
  have hrel := rel_update h key
  rw [ha] at hrel
  obtain ⟨b, hb, hab⟩ := hrel.of_some
  rw [if_pos rfl] at hab
  obtain ⟨t, -, rfl⟩ := hab
  exact ⟨t, hb⟩

/-- An update leaves what is under other keys. -/
theorem get?_update_of_ne (h : c.update now key f = .ok c') (hk : k ≠ key) :
    c'.get? k = c.get? k := by
  have hrel := rel_update h k
  generalize c.get? k = x, c'.get? k = y at hrel
  cases hrel with
  | none => rfl
  | some hab => rw [if_neg (Ne.symm hk)] at hab; rw [hab]

/-- An update that leaves the keys keeps documents under them. -/
theorem keyed_update (h : c.update now key f = .ok c')
    (hf : ∀ a, Document.key (f a) = Document.key a) (hc : c.Keyed) : c'.Keyed := by
  intro k b hb
  have hrel := rel_update h k
  rw [hb] at hrel
  obtain ⟨a, ha, hab⟩ := hrel.to_some
  split at hab
  · obtain ⟨t, -, rfl⟩ := hab
    rw [Document.key_stamp, hf, hc k a ha]
  · rw [hab, hc k a ha]

/-- **An update revises**, by what it does to the document under its key. -/
theorem revises_update (h : c.update now key f = .ok c') (hR : ∀ a, R a a)
    (hf : ∀ a t, c.get? key = some a → Document.updatedAt (f a) < t →
      R a (Document.stamp t (f a))) : Revises R c c' := by
  refine .of_rel fun k => (rel_update h k).imp fun a b ha hab => ?_
  split at hab
  · next hk =>
    obtain ⟨t, ht, rfl⟩ := hab
    exact hf a t (hk ▸ ha) ht
  · exact hab ▸ hR a

/-- **An update of many revises**, by what it does to the documents that fit. -/
theorem revises_updateMany {p : α → Bool} (h : c.updateMany now p f = .ok c')
    (hR : ∀ a, R a a)
    (hf : ∀ a t, p a → Document.updatedAt (f a) < t → R a (Document.stamp t (f a))) :
    Revises R c c' := by
  refine .of_rel fun k => (rel_updateMany h k).imp fun a b _ hab => ?_
  split at hab
  · next hp =>
    obtain ⟨t, ht, rfl⟩ := hab
    exact hf a t hp ht
  · exact hab ▸ hR a

/-- **An insertion extends**, and changes nothing that is there. -/
theorem extends_insert (h : c.insert now b = .ok c') (hR : ∀ a, R a a) : Extends R c c' := by
  obtain ⟨hfree, t, -, hget⟩ := get?_insert h
  intro k a ha
  refine ⟨a, ?_, hR a⟩
  have hk : k ≠ Document.key b := by
    rintro rfl
    rw [hfree] at ha
    cases ha
  rw [hget, if_neg hk, ha]

/-! ## What holds of a document -/

variable {P : α → Prop}

/-- There is a document under a key, and `P` holds of it. -/
def Holds (c : Collection α) (k : String) (P : α → Prop) : Prop :=
  ∃ a, c.get? k = some a ∧ P a

omit [Document α] in
/-- What holds of a document holds as long as revisions keep it. -/
theorem Extends.holds (h : Extends R c c') (hP : ∀ {a b}, R a b → P a → P b)
    (hc : c.Holds k P) : c'.Holds k P := by
  obtain ⟨a, ha, hp⟩ := hc
  obtain ⟨b, hb, hab⟩ := h k a ha
  exact ⟨b, hb, hP hab hp⟩

/-- What holds of the document that an update wrote. -/
theorem holds_update (h : c.update now key f = .ok c')
    (hP : ∀ a t, c.get? key = some a → P (Document.stamp t (f a))) : c'.Holds key P := by
  obtain ⟨⟨a, ha⟩, -⟩ := get?_update (k := key) h
  obtain ⟨t, hb⟩ := get?_update_self h ha
  exact ⟨_, hb, hP a t ha⟩

/-- What holds of the document that was inserted. -/
theorem holds_insert (h : c.insert now b = .ok c') (hP : ∀ t, P (Document.stamp t b)) :
    c'.Holds (Document.key b) P := by
  obtain ⟨-, t, -, hget⟩ := get?_insert h
  exact ⟨_, by rw [hget, if_pos rfl], hP t⟩

end Collection

end ChainLedger
