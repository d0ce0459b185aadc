import ChainLedger.Codec.Record
import ChainLedger.Proofs.Ledger.Lookup

/-!
# What a record is read from

A record that was read was an object or a list (`read_record`). Of an object
the fields were given once each, under their names (`Fields.eq_of_scan`), of a
list at their places; either way every field was read from what was given for
it (`Given`, with one step for each field in `Fields.ofMembers_field` and
`Fields.ofItems_field`).
-/

namespace ChainLedger.Codec

variable {ρ α β : Type} {fs : Fields ρ α} {seen : List String} {ms : List (String × Json)}
  {items : List Json} {name shape : String} {place : Nat} {v w : Json} {r : ρ}

/-- **What was given for a field**: all that stands under its name in an
object, or what stands at its place in a list. -/
inductive Given (place : Nat) (name : String) : Json → Json → Prop
  | member {ms : List (String × Json)} {v : Json} :
    (∀ w, (name, w) ∈ ms ↔ w = v) → Given place name (.obj ms) v
  | item {items : List Json} {v : Json} : items[place]? = some v → Given place name (.arr items) v

namespace Fields

/-! ## One more field -/

theorem ofMembers_start {make b : α} {look : String → Option Json} :
    (start make : Fields ρ α).ofMembers look = .ok b ↔ make = b := by
  simp [start]

theorem ofItems_start {make b : α} {expected : String} {rest : List Json} :
    (start make : Fields ρ α).ofItems expected items = .ok (b, rest) ↔ make = b ∧ items = rest := by
  simp [start]

theorem ofMembers_field {fs : Fields ρ (α → β)} {c : Codec α} {get : ρ → α}
    {look : String → Option Json} {b : β} :
    (fs.field name c get).ofMembers look = .ok b ↔
      ∃ make, fs.ofMembers look = .ok make ∧
        ∃ v a, look name = some v ∧ c.read v = .ok a ∧ make a = b := by
  simp only [field, also, bind_eq_ok]
  refine exists_congr fun make => and_congr_right fun _ => ?_
  cases look name with
  | none => simp [orElse]
  | some v =>
    simp only [Option.some.injEq, exists_eq_left', exists_and_left]
    rw [bind_eq_ok]
    simp only [pure_eq_ok]

theorem ofItems_field {fs : Fields ρ (α → β)} {c : Codec α} {get : ρ → α} {expected : String}
    {b : β} {rest : List Json} :
    (fs.field name c get).ofItems expected items = .ok (b, rest) ↔
      ∃ make v, fs.ofItems expected items = .ok (make, v :: rest) ∧
        ∃ a, c.read v = .ok a ∧ make a = b := by
  simp only [field, also, bind_eq_ok, Prod.exists]
  constructor
  · rintro ⟨make, items', hmake, h⟩
    cases items' with
    | nil => simp [orElse] at h
    | cons v items' =>
      obtain ⟨a, ha, hb⟩ := bind_eq_ok.mp h
      cases hb
      exact ⟨make, v, hmake, a, ha, rfl⟩
  · rintro ⟨make, v, hmake, a, ha, rfl⟩
    exact ⟨make, v :: rest, hmake, bind_eq_ok.mpr ⟨a, ha, rfl⟩⟩

/-! ## Members of an object -/

/-- **A field is given once**: the scan refuses a second time. -/
theorem eq_of_scan (h : fs.scan seen ms = .ok ()) (hname : name ∈ fs.names)
    (hv : (name, v) ∈ ms) : name ∉ seen ∧ ∀ w, (name, w) ∈ ms → w = v := by
  induction ms generalizing seen v with
  | nil => cases hv
  | cons m ms ih =>
    obtain ⟨key, first⟩ := m
    rw [scan] at h
    rw [List.mem_cons, Prod.mk.injEq] at hv
    split at h
    · split at h
      · cases h
      · next hunseen =>
        obtain ⟨_, -, h⟩ := bind_eq_ok.mp h
        by_cases hkey : name = key
        · -- Whatever comes after the first is not under its name again.
          subst hkey
          have hrest (w : Json) (hw : (name, w) ∈ ms) : False :=
            (ih h hw).1 List.mem_cons_self
          have hfirst : v = first := hv.elim (·.2) fun hmem => (hrest v hmem).elim
          refine ⟨hunseen, fun w hw => ?_⟩
          rw [List.mem_cons, Prod.mk.injEq] at hw
          exact hw.elim (·.2.trans hfirst.symm) fun hmem => (hrest w hmem).elim
        · obtain ⟨hnew, hrest⟩ := ih h (hv.resolve_left fun heq => hkey heq.1)
          refine ⟨fun hseen => hnew (List.mem_cons_of_mem _ hseen), fun w hw => ?_⟩
          rw [List.mem_cons, Prod.mk.injEq] at hw
          exact hrest w (hw.resolve_left fun heq => hkey heq.1)
    · next hother =>
      have hkey : name ≠ key := fun heq => hother (heq ▸ hname)
      obtain ⟨hnew, hrest⟩ := ih h (hv.resolve_left fun heq => hkey heq.1)
      refine ⟨hnew, fun w hw => ?_⟩
      rw [List.mem_cons, Prod.mk.injEq] at hw
      exact hrest w (hw.resolve_left fun heq => hkey heq.1)

end Fields

theorem mem_of_lookup (h : lookup ms name = some v) : (name, v) ∈ ms := by
  obtain ⟨⟨key, v'⟩, hfind, rfl⟩ := Option.map_eq_some_iff.mp h
  have hkey : key = name := by simpa using List.find?_some hfind
  exact hkey ▸ List.mem_of_find?_eq_some hfind

/-- What was found for a field of an object is all that was given. -/
theorem given_of_lookup (hscan : fs.scan [] ms = .ok ()) (hname : name ∈ fs.names)
    (h : lookup ms name = some v) : Given place name (.obj ms) v := by
  have hmem := mem_of_lookup h
  obtain ⟨-, hunique⟩ := Fields.eq_of_scan hscan hname hmem
  refine .member fun w => ⟨hunique w, ?_⟩
  rintro rfl
  exact hmem

/-- **A record is read from an object or from a list.** -/
theorem read_record {fs : Fields ρ ρ} (h : (record shape fs).read v = .ok r) :
    (∃ ms, v = .obj ms ∧ fs.scan [] ms = .ok () ∧ fs.ofMembers (lookup ms) = .ok r) ∨
      ∃ items expected, v = .arr items ∧ fs.ofItems expected items = .ok (r, []) := by
  cases v with
  | obj ms =>
    obtain ⟨_, hscan, hmembers⟩ := bind_eq_ok.mp h
    exact .inl ⟨ms, rfl, hscan, hmembers⟩
  | arr items =>
    obtain ⟨⟨r', rest⟩, hitems, hrest⟩ := bind_eq_ok.mp h
    cases rest with
    | nil =>
      cases hrest
      exact .inr ⟨items, _, rfl, hitems⟩
    | cons => cases hrest
  | null => cases h
  | bool => cases h
  | num => cases h
  | str => cases h

end ChainLedger.Codec
