import ChainLedger.Proofs.Ledger.Lookup
import ChainLedger.Event.Normal

/-!
# Events and their names

What is made of an event is of the kind that its name says and comes from
where the event does. The name, the metadata and the value of the hash are
all that matters of an event that is delivered again.
-/

namespace ChainLedger

/-- What a reader reads is of the kind whose name it is under. -/
theorem Payload.event_of_readers {name : String} {read : Reader} (h : (name, read) ∈ readers)
    {v : Json} {p : Payload} (hp : read v = .ok p) : p.event = name := by
  have hkind {α : Type} {c : Codec α} {kind : α → Payload} (hv : reads c kind v = .ok p) :
      ∃ a, p = kind a := by
    obtain ⟨a, -, ha⟩ := map_eq_ok.mp hv
    exact ⟨a, ha.symm⟩
  simp only [readers, List.mem_cons, Prod.mk.injEq, List.not_mem_nil, or_false] at h
  rcases h with ⟨rfl, rfl⟩ | ⟨rfl, rfl⟩ | ⟨rfl, rfl⟩ | ⟨rfl, rfl⟩ | ⟨rfl, rfl⟩ | ⟨rfl, rfl⟩ |
    ⟨rfl, rfl⟩ | ⟨rfl, rfl⟩ | ⟨rfl, rfl⟩ | ⟨rfl, rfl⟩ | ⟨rfl, rfl⟩ | ⟨rfl, rfl⟩ | ⟨rfl, rfl⟩ |
    ⟨rfl, rfl⟩ | ⟨rfl, rfl⟩ | ⟨rfl, rfl⟩
  all_goals
    obtain ⟨a, rfl⟩ := hkind hp
    rfl

namespace InboundEvent

variable {raw again : InboundEvent} {e : Event}

/-- What is made of an event was read from its metadata by the reader of its
name. -/
theorem exists_reader_of_normalize (h : raw.normalize = .ok (some e)) :
    ∃ read, (raw.eventName, read) ∈ Payload.readers ∧ read raw.metadata = .ok e.payload := by
  unfold normalize at h
  split at h
  · cases h
  · next read hread =>
    split at h
    · next p hp =>
      cases h
      obtain ⟨⟨name, read'⟩, hfind, rfl⟩ := Option.map_eq_some_iff.mp hread
      have hname : name = raw.eventName := by simpa using List.find?_some hfind
      exact ⟨read', hname ▸ List.mem_of_find?_eq_some hfind, hp⟩
    · cases h

/-- An event is of the kind that its name says. -/
theorem event_of_normalize (h : raw.normalize = .ok (some e)) :
    e.payload.event = raw.eventName := by
  obtain ⟨read, hread, hp⟩ := exists_reader_of_normalize h
  exact Payload.event_of_readers hread hp

theorem origin_of_normalize (h : raw.normalize = .ok (some e)) : e.origin = raw.origin := by
  unfold normalize at h
  split at h
  · cases h
  · split at h
    · cases h
      rfl
    · cases h

/-- An event that is delivered again with the same name and metadata carries
the same. -/
theorem normalize_again (h : raw.normalize = .ok (some e)) (hname : again.eventName = raw.eventName)
    (hmeta : again.metadata = raw.metadata) :
    again.normalize = .ok (some ⟨again.origin, e.payload⟩) := by
  unfold normalize at h ⊢
  rw [hname, hmeta]
  split at h
  · cases h
  · split at h
    · next hp =>
      cases h
      simp only [*]
    · cases h

end InboundEvent

end ChainLedger
