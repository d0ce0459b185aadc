import ChainLedger.Proofs.Transition.Writing

/-!
# Statuses as joins

`advance` takes a status to the later of two. So where a status ends depends
on the statuses that it was called to, and neither on the order of the calls
nor on how often they were made: it ends at their join (`Joins`), and there is
only one (`Joins.unique`). `Collection.Raised` says so of every document of a
collection, each under its own calls; what is raised once and raised again is
raised by the calls of both (`Raised.trans`), and calls that were heard change
nothing when they are made again (`Raised.again`).
-/

namespace ChainLedger

/-- Statuses that are told apart by their places. -/
class LawfulPipeline (α : Type) [Pipeline α] : Prop where
  eq_of_place : ∀ {a b : α}, Pipeline.place a = Pipeline.place b → a = b

instance : LawfulPipeline AssetStatus where
  eq_of_place {a b} h := by cases a <;> cases b <;> first | rfl | cases h

instance : LawfulPipeline CustodyStatus where
  eq_of_place {a b} h := by cases a <;> cases b <;> first | rfl | cases h

instance : LawfulPipeline NftStatus where
  eq_of_place {a b} h := by cases a <;> cases b <;> first | rfl | cases h

/-- An offering on its chain is ahead of a draft. -/
instance : Pipeline OnChainStatus where
  place
    | .draft => 0
    | .onChain => 1

instance : LawfulPipeline OnChainStatus where
  eq_of_place {a b} h := by cases a <;> cases b <;> first | rfl | cases h

/-! ## Joins -/

section Joins

variable {α : Type} [Pipeline α] {calls calls' : α → Prop} {a b c s : α}

/-- **A status is the join** of what it was and of all that it is called to:
it is as far as they are, and no farther. -/
def Joins (calls : α → Prop) (a b : α) : Prop :=
  ∀ s : α, Pipeline.place s ≤ Pipeline.place b ↔
    Pipeline.place s ≤ Pipeline.place a ∨ ∃ t, calls t ∧ Pipeline.place s ≤ Pipeline.place t

namespace Joins

theorem le (h : Joins calls a b) : Pipeline.place a ≤ Pipeline.place b :=
  (h a).mpr (.inl (Nat.le_refl _))

/-- A status is as far as what it was called to. -/
theorem reached (h : Joins calls a b) (hs : calls s) : Pipeline.place s ≤ Pipeline.place b :=
  (h s).mpr (.inr ⟨s, hs, Nat.le_refl _⟩)

/-- A status that is farther than it was is no farther than a call. -/
theorem called (h : Joins calls a b) (hs : Pipeline.place s ≤ Pipeline.place b)
    (ha : ¬ Pipeline.place s ≤ Pipeline.place a) :
    ∃ t, calls t ∧ Pipeline.place s ≤ Pipeline.place t :=
  ((h s).mp hs).resolve_left ha

/-- Calls to what is reached change nothing. -/
theorem of_reached (h : ∀ t, calls t → Pipeline.place t ≤ Pipeline.place a) : Joins calls a a := by
  intro s
  constructor
  · exact .inl
  · rintro (hs | ⟨t, ht, hs⟩)
    · exact hs
    · exact Nat.le_trans hs (h t ht)

theorem trans (h : Joins calls a b) (h' : Joins calls' b c) :
    Joins (fun t => calls t ∨ calls' t) a c := by
  intro s
  rw [h' s, h s, or_assoc, ← exists_or]
  simp only [or_and_right]

theorem congr (h : Joins calls a b) (hcalls : ∀ t, calls t ↔ calls' t) : Joins calls' a b := by
  intro s
  rw [h s]
  simp only [hcalls]

/-- **A join is unique.** -/
theorem unique [LawfulPipeline α] (h : Joins calls a b) (h' : Joins calls a c) : b = c :=
  LawfulPipeline.eq_of_place
    (Nat.le_antisymm ((h' b).mpr ((h b).mp (Nat.le_refl _)))
      ((h c).mpr ((h' c).mp (Nat.le_refl _))))

end Joins

/-- **A status that is advanced** is the join with what it is advanced to. -/
theorem joins_advance (a next : α) : Joins (· = next) a (advance a next) := by
  intro s
  simp only [exists_eq_left]
  unfold advance ahead
  by_cases h : Pipeline.place a < Pipeline.place next <;> simp only [h, decide_true, decide_false,
    if_true, Bool.false_eq_true, if_false] <;> omega

/-- A status is advanced, or called to nothing and left as it is. -/
theorem joins_elim (a : α) (next : Option α) :
    Joins (next = some ·) a (next.elim a (advance a)) := by
  cases next with
  | none => exact .of_reached nofun
  | some next => exact (joins_advance a next).congr fun t => by rw [Option.some.injEq, eq_comm]

end Joins

/-! ## Collections -/

namespace Collection

variable {α β : Type} [Pipeline β] {status : α → β} {calls calls' : String → β → Prop}
  {c c' c'' : Collection α} {k : String} {a b : α}

/-- **Every document is still there**, and a status of it joined its calls;
no document came in. -/
def Raised (status : α → β) (calls : String → β → Prop) (c c' : Collection α) : Prop :=
  ∀ k, Option.Rel (fun a b => Joins (calls k) (status a) (status b)) (c.get? k) (c'.get? k)

namespace Raised

theorem joins (h : Raised status calls c c') (ha : c.get? k = some a) (hb : c'.get? k = some b) :
    Joins (calls k) (status a) (status b) :=
  (h k).of_eq_some ha hb

/-- Calls to what is reached change nothing. -/
theorem of_reached
    (h : ∀ k t, calls k t → ∀ a, c.get? k = some a →
      Pipeline.place t ≤ Pipeline.place (status a)) : Raised status calls c c :=
  fun k => .self fun a ha => .of_reached fun t ht => h k t ht a ha

/-- **What is raised twice** is raised by the calls of both times. -/
theorem trans (h : Raised status calls c c') (h' : Raised status calls' c' c'') :
    Raised status (fun k t => calls k t ∨ calls' k t) c c'' :=
  fun k => (h k).comp (h' k) fun _ _ _ => Joins.trans

theorem congr (h : Raised status calls c c') (hcalls : ∀ k t, calls k t ↔ calls' k t) :
    Raised status calls' c c' :=
  fun k => (h k).imp fun _ _ _ hab => hab.congr (hcalls k)

/-- **Calls that were heard** change nothing when they are made again. -/
theorem again (h : Raised status calls c c') (hcalls : ∀ k t, calls' k t → calls k t) :
    Raised status calls' c' c' := by
  refine .of_reached fun k t ht b hb => ?_
  obtain ⟨a, -, hab⟩ := (hb ▸ h k : Option.Rel _ (c.get? k) (some b)).to_some
  exact hab.reached (hcalls k t ht)

/-- **The same calls** come to the same statuses. -/
theorem map_eq [LawfulPipeline β] (h : Raised status calls c c') (h' : Raised status calls c c'')
    (k : String) : (c'.get? k).map status = (c''.get? k).map status := by
  have hrel := h k
  have hrel' := h' k
  generalize c.get? k = x, c'.get? k = y, c''.get? k = z at hrel hrel'
  cases hrel with
  | none => cases hrel'; rfl
  | some hab =>
    obtain ⟨d, rfl, had⟩ := hrel'.of_some
    exact congrArg some (hab.unique had)

end Raised

/-- **A status of the documents under some keys is advanced**, or left as it
is. -/
theorem Rewrites.raised [Document α] {w : Rewrite α} {next : Option β} (h : Rewrites w c c')
    (hwrite : ∀ k ∈ w.keys, ∀ a t, c.get? k = some a →
      status (Document.stamp t (w.write a)) = next.elim (status a) (advance (status a))) :
    Raised status (fun k s => k ∈ w.keys ∧ next = some s) c c' := by
  refine fun k => h.rel k (fun hk a => .of_reached fun t ht => absurd ht.1 hk) fun hk a t ha => ?_
  rw [hwrite k hk a t ha]
  exact (joins_elim (status a) next).congr fun t => (and_iff_right hk).symm

end Collection

end ChainLedger
