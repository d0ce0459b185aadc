import ChainLedger.Proofs.Ledger.Lookup
import ChainLedger.Transition.ChainAnswer
import ChainLedger.Transition.Confirmation

/-!
# What a receipt says of its transaction

A status that is a text is one of success if and only if it denotes one in
hexadecimal (`Decode.success_iff_of_receipt`), and a status that is no text
counts as one of success whatever it is. A session ensures something of its
answers if it holds of whatever it may answer (`Session.Ensures`). So if a node
has no receipt to give but ones with a text for a status that does not denote
one, the transaction is not confirmed (`Chains.confirmed_eq_error`).
-/

namespace ChainLedger

-- A power is the one of the core library, whatever other structure is in scope.
attribute [local instance (2000)] instPowNat

/-! ## Texts that denote one -/

theorem Hex.digit?_eq_zero {b : UInt8} : digit? b = some 0 ↔ b = 0x30 := by
  simp only [digit?, UInt8.le_iff_toNat_le, ← UInt8.toNat_inj, UInt8.reduceToNat]
  grind

theorem Hex.digit?_eq_one {b : UInt8} : digit? b = some 1 ↔ b = 0x31 := by
  simp only [digit?, UInt8.le_iff_toNat_le, ← UInt8.toNat_inj, UInt8.reduceToNat]
  grind

namespace Quantity

/-- Digits of the number one: any zeros, and then a one. -/
inductive OneDigits : Bytes → Prop
  | one : OneDigits [0x31]
  | zero {bs : Bytes} (h : OneDigits bs) : OneDigits (0x30 :: bs)

/-- **A text denotes one** in hexadecimal, after an optional mark and an
optional sign. -/
def DenotesOne (s : String) : Prop := OneDigits (dropPlus (Hex.dropMark (Text.utf8 s)))

theorem oneDigits_cons {b : UInt8} {bs : Bytes} :
    OneDigits (b :: bs) ↔ b = 0x31 ∧ bs = [] ∨ b = 0x30 ∧ OneDigits bs := by
  constructor
  · rintro (_ | h)
    · exact .inl ⟨rfl, rfl⟩
    · exact .inr ⟨rfl, h⟩
  · rintro (⟨rfl, rfl⟩ | ⟨rfl, h⟩)
    · exact .one
    · exact .zero h

/-- Digits that make one together with those before them, which make `n`. -/
theorem readWord_eq_one {n : Nat} {bs : Bytes} :
    readWord n bs = .ok 1 ↔ n = 1 ∧ bs = [] ∨ n = 0 ∧ OneDigits bs := by
  induction bs generalizing n with
  | nil =>
    have hnone : ¬ OneDigits [] := nofun
    simp [readWord, hnone]
  | cons b bs ih =>
    rw [readWord, oneDigits_cons, ← Hex.digit?_eq_one, ← Hex.digit?_eq_zero]
    cases hb : Hex.digit? b with
    | none => simp
    | some d =>
      simp only
      split
      · rw [ih]
        grind
      · grind

theorem readWord_lt {n m : Nat} {bs : Bytes} (hn : n < 2 ^ (64 : Nat))
    (h : readWord n bs = .ok m) : m < 2 ^ (64 : Nat) := by
  induction bs generalizing n with
  | nil =>
    cases h
    exact hn
  | cons b bs ih =>
    rw [readWord] at h
    split at h
    · cases h
    · split at h
      · next hlt => exact ih hlt h
      · cases h

/-- **A number is read as one** if and only if its text denotes one. -/
theorem word_eq_one {s : String} : word s = .ok 1 ↔ DenotesOne s := by
  unfold word DenotesOne
  split
  · next hnil =>
    rw [hnil]
    exact ⟨nofun, nofun⟩
  · rw [map_eq_ok]
    constructor
    · rintro ⟨m, hm, hone⟩
      have hlt := readWord_lt (by omega) hm
      obtain rfl : m = 1 := by simpa [BitVec.toNat_eq, Nat.mod_eq_of_lt hlt] using hone
      exact ((readWord_eq_one.mp hm).resolve_left (by simp)).2
    · intro h
      exact ⟨1, readWord_eq_one.mpr (.inr ⟨rfl, h⟩), rfl⟩

end Quantity

/-! ## Receipts -/

/-- **A receipt is one of success** unless its status is a text that does not
denote one. -/
theorem Decode.success_iff_of_receipt {v : Json} {r : Receipt} (h : receipt v = .ok r) :
    r.success = true ↔ ∀ s, v.getText? "status" = some s → Quantity.DenotesOne s := by
  simp only [receipt] at h
  obtain ⟨status, hstatus, h⟩ := bind_eq_ok.mp h
  have hsuccess : r.success = status.all (· = 1) := by
    split at h
    all_goals
      simp only [bind_eq_ok, pure_eq_ok] at h
      obtain ⟨-, -, -, -, -, -, -, -, -, -, rfl⟩ := h
      rfl
  rw [hsuccess]
  unfold optional at hstatus
  split at hstatus
  · next s hs =>
    obtain ⟨w, hw, rfl⟩ := map_eq_ok.mp hstatus
    have hword : w = 1 ↔ Quantity.DenotesOne s := by
      rw [← Quantity.word_eq_one, mapError_eq_ok.mp hw, Except.ok.injEq]
    simpa [hs] using hword
  · next hs =>
    cases hstatus
    simp [hs]

/-- **A node has no receipt of success to give**: there is none yet, or its
status is a text that does not denote one. -/
def Json.Unconfirmed (v : Json) : Prop :=
  v.isNull = true ∨ ∃ s, v.getText? "status" = some s ∧ ¬ Quantity.DenotesOne s

/-! ## What a session ensures -/

namespace Session

variable {σ α β : Type}

/-- **A session ensures something of its answers**, whatever state it starts
from. -/
def Ensures (x : Session σ α) (P : α → Prop) : Prop :=
  ∀ s a, (x.runFrom s).1 = .ok a → P a

variable {x : Session σ α} {f : α → Session σ β} {P : α → Prop} {Q : β → Prop}

theorem ensures_pure {a : α} (h : P a) : (pure a : Session σ α).Ensures P := by
  rintro s _ ⟨⟩
  exact h

theorem ensures_ofExcept {answer : Except ChainError α} (h : ∀ a, answer = .ok a → P a) :
    (ofExcept answer : Session σ α).Ensures P :=
  fun _ => h

theorem Ensures.bind (hx : x.Ensures P) (hf : ∀ a, P a → (f a).Ensures Q) :
    (x >>= f).Ensures Q := by
  intro s b hb
  rw [runFrom_bind] at hb
  rcases hout : x.runFrom s with ⟨_ | a, s'⟩ <;> rw [hout] at hb
  · cases hb
  · exact hf a (hx s a (by rw [hout])) s' b hb

/-- Whatever comes before, what the rest ensures is ensured. -/
theorem ensures_bind (hf : ∀ a, (f a).Ensures Q) : (x >>= f).Ensures Q :=
  Ensures.bind (P := fun _ => True) (fun _ _ _ => trivial) fun a _ => hf a

end Session

/-- A session that is tried again ensures what each try does. -/
theorem Link.ensures_tries {σ α : Type} (net : Link σ) {delay : Nat} {op : Session σ α}
    {P : α → Prop} (h : op.Ensures P) (more : Nat) : (net.tries delay op more).Ensures P := by
  induction more with
  | zero => exact h
  | succ more ih =>
    intro s a ha
    simp only [Link.tries, Session.of, Session.runFrom, ExceptT.run] at ha ih
    split at ha
    · split at ha
      · exact ih _ a ha
      · cases ha
    · exact h s a ha

namespace Chains

variable {σ : Type} (g : Chains σ) {chain : Nat} {hash : Hash}

/-- The receipts that are read from a node are what it has to give. -/
theorem ensures_receiptOf (chain : Nat)
    (hnode : ∀ url s v, (g.net.request url "eth_getTransactionReceipt"
      (.arr [.str hash.toText]) s).1 = .ok v → v.Unconfirmed) :
    (g.receiptOf chain hash).Ensures fun found => ∀ r, found = some r → r.success = false := by
  refine Session.ensures_bind fun c => ?_
  have hrequest : (g.request c "eth_getTransactionReceipt" (.arr [.str hash.toText])).Ensures
      Json.Unconfirmed :=
    g.net.ensures_tries (hnode c.url) _
  refine hrequest.bind fun v hv => ?_
  split
  · exact Session.ensures_pure nofun
  · next hnull =>
    obtain ⟨s, hs, hone⟩ := hv.resolve_left hnull
    refine Session.Ensures.bind (P := fun r => r.success = false) ?_ fun r hr => ?_
    · refine Session.ensures_ofExcept fun r hr => ?_
      have hiff := Decode.success_iff_of_receipt (mapError_eq_ok.mp hr)
      exact Bool.eq_false_iff.mpr fun htrue => hone (hiff.mp htrue s hs)
    · refine Session.ensures_pure ?_
      rintro _ ⟨⟩
      exact hr

/-- **A transaction is not confirmed** by a node without a receipt of success. -/
theorem confirmed_eq_error
    (hnode : ∀ url s v, (g.net.request url "eth_getTransactionReceipt"
      (.arr [.str hash.toText]) s).1 = .ok v → v.Unconfirmed) (s : σ) :
    ∃ r, confirmed hash (answered (g.receiptOf chain hash) s).1 = .error r := by
  have hensures := g.ensures_receiptOf chain hnode s
  simp only [answered]
  rcases hout : (g.receiptOf chain hash).runFrom s with ⟨answer, s'⟩
  rw [hout] at hensures
  cases answer with
  | error e => exact ⟨_, rfl⟩
  | ok found =>
    cases found with
    | none => exact ⟨_, rfl⟩
    | some r =>
      have hr : r.success = false := hensures _ rfl r rfl
      exact ⟨_, by simp [confirmed, Except.mapError, hr]; rfl⟩

end Chains

end ChainLedger
