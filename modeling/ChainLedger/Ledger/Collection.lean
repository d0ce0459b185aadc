import ChainLedger.Ledger.Document
import ChainLedger.Ledger.Refusal

/-!
# Collections

A `Collection` holds documents under their keys, in the order of the keys.
Every write *touches* the documents it changes: the watermark moves to the
clock, or one microsecond past the old one if the clock is not beyond it, so
it never repeats (`updatedAt_lt_touch`). The clock is read once for each
document that is touched (`Readings`), and may be set back between two
readings. Updates do not move a document to another key.
-/

namespace ChainLedger

/-- Documents under their keys, in the order of the keys. -/
structure Collection (α : Type) where
  entries : List (String × α)
  sorted : (entries.map Prod.fst).Pairwise (· < ·)
deriving DecidableEq

/-- **What the clock shows during a call** that writes to a collection: it is
read anew for each document that is touched, here by the document's key. -/
def Readings : Type := String → Instant

/-- **What the clock shows during a transaction**: one call after another has
readings of its own. -/
def Clock : Type := Nat → Readings

/-- What the clock shows after so many calls. -/
def Clock.later (clock : Clock) (calls : Nat) : Clock := fun i => clock (calls + i)

/-- A clock that stands still. -/
def Clock.still (t : Instant) : Clock := fun _ _ => t

/-- Where a clock stands still, every document is touched at the same instant. -/
instance : Coe Instant Readings := ⟨fun t _ => t⟩

instance : Coe Instant Clock := ⟨Clock.still⟩

/-- **The watermark of a write.** -/
def Instant.bump? (now old : Instant) : Option Instant :=
  (old.succMicro?).map (Instant.max now)

/-- Stamps a document that is written at the instant `now`. -/
def touch {α : Type} [Document α] (now : Instant) (a : α) : Except Refusal α :=
  match Instant.bump? now (Document.updatedAt a) with
  | some t => .ok (Document.stamp t a)
  | none => .error (.trap .instant)

/-- A write moves the watermark forward. -/
theorem updatedAt_lt_touch {α : Type} [Document α] {now : Instant} {a b : α}
    (h : touch now a = .ok b) : Document.updatedAt a < Document.updatedAt b := by
  unfold touch Instant.bump? at h
  cases hs : (Document.updatedAt a).succMicro? with
  | none => simp [hs] at h
  | some u =>
    simp only [hs, Option.map_some, Except.ok.injEq] at h
    subst h
    rw [Document.updatedAt_stamp]
    exact Int.lt_of_lt_of_le (Instant.lt_of_succMicro? hs) (Instant.le_max_right now u)

namespace Collection

variable {α : Type}

/-- No documents. -/
def empty : Collection α := ⟨[], .nil⟩

instance : Inhabited (Collection α) := ⟨empty⟩

/-- How many documents there are. -/
def size (c : Collection α) : Nat := c.entries.length

/-- The documents, in the order of their keys. -/
def toList (c : Collection α) : List α := c.entries.map (·.2)

/-- The document under a key. -/
def get? (c : Collection α) (key : String) : Option α :=
  (c.entries.find? (·.1 = key)).map (·.2)

/-- There is a document under a key. -/
def contains (c : Collection α) (key : String) : Bool :=
  (c.get? key).isSome

/-- The first document that fits. -/
def find? (c : Collection α) (p : α → Bool) : Option α :=
  c.toList.find? p

/-- The documents that fit. -/
def filter (c : Collection α) (p : α → Bool) : List α :=
  c.toList.filter p

/-- Folds over the documents that fit. -/
def fold {β : Type} (c : Collection α) (p : α → Bool) (init : β) (f : β → α → β) : β :=
  (c.filter p).foldl f init

/-! ## Inserting -/

/-- Puts an entry in its place; one under the same key is replaced. -/
def place (k : String) (a : α) : List (String × α) → List (String × α)
  | [] => [(k, a)]
  | e :: rest =>
    if k < e.1 then (k, a) :: e :: rest
    else if k = e.1 then (k, a) :: rest
    else e :: place k a rest

theorem mem_keys_place {k x : String} {a : α} {es : List (String × α)} :
    x ∈ (place k a es).map Prod.fst ↔ x = k ∨ x ∈ es.map Prod.fst := by
  induction es with
  | nil => simp [place]
  | cons e es ih =>
    unfold place
    split
    · simp
    · split
      · next h => subst h; simp
      · simp only [List.map_cons, List.mem_cons, ih]
        exact or_left_comm

theorem sorted_place {k : String} {a : α} {es : List (String × α)}
    (h : (es.map Prod.fst).Pairwise (· < ·)) : ((place k a es).map Prod.fst).Pairwise (· < ·) := by
  induction es with
  | nil => simp [place]
  | cons e es ih =>
    rw [List.map_cons, List.pairwise_cons] at h
    unfold place
    split
    · next hlt =>
      simp only [List.map_cons, List.pairwise_cons, List.mem_cons, forall_eq_or_imp]
      exact ⟨⟨hlt, fun x hx => String.lt_trans hlt (h.1 x hx)⟩, h.1, h.2⟩
    · split
      · next heq => subst heq; exact List.pairwise_cons.mpr h
      · next hlt hne =>
        rw [List.map_cons, List.pairwise_cons]
        refine ⟨fun x hx => ?_, ih h.2⟩
        rcases mem_keys_place.mp hx with rfl | hx
        · exact String.not_le.mp fun hle =>
            hne (String.le_antisymm hle (String.not_lt.mp hlt))
        · exact h.1 x hx

/-- Sets the document under a key. -/
def set (c : Collection α) (key : String) (a : α) : Collection α :=
  ⟨place key a c.entries, sorted_place c.sorted⟩

variable [Document α]

/-- **A collection of some documents**; of equal keys the last one wins. -/
def ofList (as : List α) : Collection α :=
  as.foldl (fun c a => c.set (Document.key a) a) empty

/-- **Inserts a document** under its key, which must be free. -/
def insert (now : Readings) (a : α) (c : Collection α) : Except Refusal (Collection α) :=
  if c.contains (Document.key a) then
    .error (.store (.duplicateKey (Document.collection α) (Document.key a)))
  else do
    let b ← touch (now (Document.key a)) a
    return c.set (Document.key a) b

/-! ## Updating -/

/-- Changes and touches a document if it fits. -/
def changeIf (now : Readings) (p : String × α → Bool) (f : α → α) (e : String × α) :
    Except Refusal α :=
  if p e then touch (now e.1) (f e.2) else .ok e.2

/-- Changes and touches the entries that fit. -/
def changeAll (now : Readings) (p : String × α → Bool) (f : α → α) :
    List (String × α) → Except Refusal (List (String × α))
  | [] => .ok []
  | e :: rest => do
    let a ← changeIf now p f e
    let rest ← changeAll now p f rest
    return (e.1, a) :: rest

/-- Keys stay as they are. -/
theorem keys_changeAll {now : Readings} {p : String × α → Bool} {f : α → α}
    {es es' : List (String × α)} (h : changeAll now p f es = .ok es') :
    es'.map Prod.fst = es.map Prod.fst := by
  induction es generalizing es' with
  | nil => cases h; rfl
  | cons e es ih =>
    unfold changeAll at h
    cases ha : changeIf now p f e with
    | error r => rw [ha] at h; cases h
    | ok a =>
      cases hr : changeAll now p f es with
      | error r => rw [ha, hr] at h; cases h
      | ok rest => rw [ha, hr] at h; cases h; simp [ih hr]

/-- Changes and touches the entries of a collection that fit. -/
def change (now : Readings) (p : String × α → Bool) (f : α → α) (c : Collection α) :
    Except Refusal (Collection α) :=
  match h : changeAll now p f c.entries with
  | .ok es => .ok ⟨es, by rw [keys_changeAll h]; exact c.sorted⟩
  | .error r => .error r

/-- The refusal of a write to a document that is not there. -/
def notFound (α : Type) [Document α] (key : String) : Refusal :=
  .store (.notFound (Document.collection α) key)

/-- **Updates the document under a key.** -/
def update (now : Readings) (key : String) (f : α → α) (c : Collection α) :
    Except Refusal (Collection α) :=
  if c.contains key then c.change now (·.1 = key) f
  else .error (notFound α key)

/-- **Updates every document that fits.** -/
def updateMany (now : Readings) (p : α → Bool) (f : α → α) (c : Collection α) :
    Except Refusal (Collection α) :=
  c.change now (fun e => p e.2) f

/-- **Updates the first document that fits**, and says under which key it
is; nothing if none fits. -/
def updateFirst (now : Readings) (p : α → Bool) (f : α → α) (c : Collection α) :
    Except Refusal (Option (String × Collection α)) :=
  match c.entries.find? (fun e => p e.2) with
  | none => .ok none
  | some e => (c.change now (·.1 = e.1) f).map fun c => some (e.1, c)

/-- **Updates the document under a key if its watermark is still the one
that was read.** -/
def updateIfUnchanged (now : Readings) (key : String) (watermark : Instant) (f : α → α)
    (c : Collection α) : Except Refusal (Collection α) :=
  match c.get? key with
  | none => .error (notFound α key)
  | some a =>
    if Document.updatedAt a = watermark then c.update now key f
    else .error (.store (.conflict (Document.collection α) key))

end Collection

end ChainLedger
