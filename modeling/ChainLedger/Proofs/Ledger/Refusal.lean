import ChainLedger.Ledger.Revenue
import ChainLedger.Proofs.Ledger.Lookup

/-!
# Which traps a result may be refused with

`Traps P x` says that a result is refused with no traps but those of `P`. It
is decided step by step: a sequence traps as its steps do (`traps_bind`), a
condition or a lookup only with its own refusal, and a sum or a product that
leaves the range does not trap at all (`traps_orOverflow`). Writes trap only
where a watermark would leave the calendar, `Traps (· = .instant)`; a
document that is there can otherwise be written (`update_ok_or_trap`).
-/

namespace ChainLedger

/-- **The traps that a result may be refused with** are of some kind. -/
def Traps {α : Type} (P : Trap → Prop) (x : Except Refusal α) : Prop :=
  ∀ t, x = .error (.trap t) → P t

section Steps

variable {α β ε : Type} {P Q : Trap → Prop}

theorem Traps.mono {x : Except Refusal α} (h : Traps P x) (hPQ : ∀ t, P t → Q t) : Traps Q x :=
  fun t ht => hPQ t (h t ht)

@[simp] theorem traps_ok {a : α} : Traps P (.ok a) := nofun

@[simp] theorem traps_pure {a : α} : Traps P (pure a) := nofun

@[simp] theorem traps_error {r : Refusal} :
    Traps P (.error r : Except Refusal α) ↔ ∀ t, r = .trap t → P t := by
  simp [Traps]

@[simp] theorem traps_throw {r : Refusal} :
    Traps P (throw r : Except Refusal α) ↔ ∀ t, r = .trap t → P t :=
  traps_error

/-- **A sequence traps as its steps do.** -/
@[simp] theorem traps_bind {x : Except Refusal α} {f : α → Except Refusal β} :
    Traps P (x >>= f) ↔ Traps P x ∧ ∀ a, x = .ok a → Traps P (f a) := by
  cases x with
  | ok a =>
    constructor
    · rintro h
      exact ⟨nofun, by rintro _ ⟨⟩; exact h⟩
    · rintro ⟨-, h⟩
      exact h a rfl
  | error r =>
    have herror : (.error r : Except Refusal α) >>= f = .error r := rfl
    rw [herror]
    simp

@[simp] theorem traps_map {x : Except Refusal α} {f : α → β} :
    Traps P (x.map f) ↔ Traps P x := by
  cases x with
  | ok a => exact ⟨fun _ => nofun, fun _ => nofun⟩
  | error r => simp [Except.map]

@[simp] theorem traps_functor_map {x : Except Refusal α} {f : α → β} :
    Traps P (f <$> x) ↔ Traps P x :=
  traps_map

@[simp] theorem traps_require {p : Prop} [Decidable p] {r : Refusal} :
    Traps P (require p r) ↔ (¬ p → ∀ t, r = .trap t → P t) := by
  by_cases hp : p <;> simp [require, hp]

@[simp] theorem traps_orRefuse {o : Option α} {r : Refusal} :
    Traps P (orRefuse r o) ↔ (o = none → ∀ t, r = .trap t → P t) := by
  cases o <;> simp [orRefuse]

/-- **What leaves the range is a breach**, and no trap. -/
@[simp] theorem traps_orOverflow {b : Balance} {o : Option Decimal} :
    Traps P (orOverflow b o) := by
  cases o <;> simp [orOverflow]

/-- An operation that has its result does not trap. -/
theorem traps_trapped {x : Except Trap α} {a : α} (h : x = .ok a) : Traps P (trapped x) := by
  rw [h]
  exact traps_ok

@[simp] theorem traps_mapError {x : Except ε α} {f : ε → Refusal} :
    Traps P (x.mapError f) ↔ ∀ e, x = .error e → ∀ t, f e = .trap t → P t := by
  cases x <;> simp [Except.mapError]

end Steps

/-! ## Writes -/

section Writes

theorem traps_of_ok_or_trap {α : Type} {x : Except Refusal α}
    (h : (∃ a, x = .ok a) ∨ x = .error (.trap .instant)) : Traps (· = .instant) x := by
  rcases h with ⟨a, rfl⟩ | rfl
  · exact traps_ok
  · simp

/-- Steps that go through or trap are a sequence that goes through or traps. -/
theorem bind_ok_or_trap {α β : Type} {x : Except Refusal α} {f : α → Except Refusal β}
    (hx : (∃ a, x = .ok a) ∨ x = .error (.trap .instant))
    (hf : ∀ a, x = .ok a → (∃ b, f a = .ok b) ∨ f a = .error (.trap .instant)) :
    (∃ b, x >>= f = .ok b) ∨ x >>= f = .error (.trap .instant) := by
  rcases hx with ⟨a, rfl⟩ | rfl
  · exact hf a rfl
  · exact .inr rfl

variable {α : Type} [Document α] {a : α}

/-- A document is touched, or its watermark is the last one of the calendar. -/
theorem touch_ok_or_trap (now : Instant) (a : α) :
    (∃ b, touch now a = .ok b) ∨ touch now a = .error (.trap .instant) := by
  unfold touch
  split
  · exact .inl ⟨_, rfl⟩
  · exact .inr rfl

namespace Collection

variable {c : Collection α} {now : Readings} {key : String} {f : α → α}

theorem changeAll_ok_or_trap (now : Readings) (p : String × α → Bool) (f : α → α)
    (es : List (String × α)) :
    (∃ es', changeAll now p f es = .ok es') ∨
      changeAll now p f es = .error (.trap .instant) := by
  induction es with
  | nil => exact .inl ⟨[], rfl⟩
  | cons e es ih =>
    have hchange : (∃ b, changeIf now p f e = .ok b) ∨
        changeIf now p f e = .error (.trap .instant) := by
      unfold changeIf
      split
      · exact touch_ok_or_trap (now e.1) (f e.2)
      · exact .inl ⟨_, rfl⟩
    rw [changeAll]
    rcases hchange with ⟨b, hb⟩ | hb
    · rw [hb]
      rcases ih with ⟨rest, hrest⟩ | hrest <;> rw [hrest]
      · exact .inl ⟨_, rfl⟩
      · exact .inr rfl
    · rw [hb]
      exact .inr rfl

theorem change_ok_or_trap (now : Readings) (p : String × α → Bool) (f : α → α)
    (c : Collection α) :
    (∃ c', c.change now p f = .ok c') ∨ c.change now p f = .error (.trap .instant) := by
  have h := changeAll_ok_or_trap now p f c.entries
  unfold change
  split
  · exact .inl ⟨_, rfl⟩
  · next r hr =>
    rcases h with ⟨es', hes⟩ | htrap
    · cases hr.symm.trans hes
    · cases hr.symm.trans htrap
      exact .inr rfl

/-- **A document that is there is written**, or its watermark would leave the
calendar. -/
theorem update_ok_or_trap (now : Readings) (f : α → α) (h : c.get? key = some a) :
    (∃ c', c.update now key f = .ok c') ∨ c.update now key f = .error (.trap .instant) := by
  rw [update, if_pos (contains_iff.mpr ⟨a, h⟩)]
  exact change_ok_or_trap ..

/-- **Documents that fit are written**, or a watermark would leave the
calendar. -/
theorem updateMany_ok_or_trap (now : Readings) (p : α → Bool) (f : α → α) (c : Collection α) :
    (∃ c', c.updateMany now p f = .ok c') ∨
      c.updateMany now p f = .error (.trap .instant) :=
  change_ok_or_trap ..

/-! Writes trap at the end of the calendar alone. -/

@[simp] theorem traps_updateMany {p : α → Bool} :
    Traps (· = .instant) (c.updateMany now p f) :=
  traps_of_ok_or_trap (updateMany_ok_or_trap now p f c)

@[simp] theorem traps_update : Traps (· = .instant) (c.update now key f) := by
  unfold update
  split
  · exact traps_of_ok_or_trap (change_ok_or_trap ..)
  · exact nofun

@[simp] theorem traps_updateIfUnchanged {watermark : Instant} :
    Traps (· = .instant) (c.updateIfUnchanged now key watermark f) := by
  unfold updateIfUnchanged
  split
  · exact nofun
  · split
    · exact traps_update
    · exact nofun

@[simp] theorem traps_insert : Traps (· = .instant) (c.insert now a) := by
  unfold insert
  split
  · exact nofun
  · exact traps_bind.mpr
      ⟨traps_of_ok_or_trap (touch_ok_or_trap (now (Document.key a)) a), fun _ _ => traps_pure⟩

end Collection

end Writes

end ChainLedger
