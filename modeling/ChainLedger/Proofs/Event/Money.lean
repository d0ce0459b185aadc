import ChainLedger.Proofs.Codec.Record
import ChainLedger.Proofs.Decimal.Scientific
import ChainLedger.Proofs.Event.Normal

/-!
# Money on the wire

Four kinds of events carry sums of money (`Payload.money`). Each was given as
a text, under its name in an object of metadata or at its place in a list, and
that text denotes a number (`InboundEvent.money_understood`): the sum is that
number if it is a decimal, and less than a unit of its last digit away in any
case. So a text of more digits than a decimal has is not refused, but read for
a neighbour (`money_of_overlong`); a text that is no numeral is refused, and a
plain numeral that stands for a decimal is not.
-/

namespace ChainLedger

-- A power is the one of the core library, whatever other structure is in scope.
attribute [local instance (2000)] instPowNat

open Codec Codec.Fields

/-- **A sum of money that an event carries**: the place and the name of its
field, and the amount that was read. -/
structure Money where
  place : Nat
  name : String
  amount : Decimal

/-- The sums of money that events carry. -/
def Payload.money : Payload → List Money
  | .deposit p => [⟨2, "amount", p.amount⟩, ⟨3, "value", p.value⟩]
  | .approveRevenue p => [⟨1, "amount", p.amount⟩]
  | .stake p => [⟨2, "amount", p.amount⟩]
  | .unstake p => [⟨2, "amount", p.amount⟩]
  | _ => []

/-- The sum was read from what was given for its field. -/
def Money.ReadFrom (m : Money) (v : Json) : Prop :=
  ∃ w, Given m.place m.name v w ∧ exactDecimal.read w = .ok m.amount

variable {v w : Json} {s : String} {d : Decimal} {q : Rat}

/-! ## Texts -/

/-- Only a text is read, and it is understood. -/
theorem understood_of_exactDecimal (h : exactDecimal.read w = .ok d) :
    ∃ s q, w = .str s ∧ Numeral.Understood s.toList q d := by
  cases w with
  | str s =>
    have htext : readDecimalText s = .ok d := h
    unfold readDecimalText at htext
    split at htext
    · next d' hd =>
      cases htext
      obtain ⟨q, hq⟩ := Numeral.exists_understood hd
      exact ⟨s, q, rfl, hq⟩
    · cases htext
  | null => cases h
  | bool => cases h
  | num => cases h
  | arr => cases h
  | obj => cases h

/-- **A text that is no numeral is refused.** -/
theorem exactDecimal_read_of_value?_eq_none (h : Numeral.value? s.toList = none) :
    exactDecimal.read (.str s) = .error (.wrongValue (.str s) decimalShape) := by
  show readDecimalText s = _
  unfold readDecimalText
  split
  · next hd =>
    obtain ⟨q, hq⟩ := Numeral.exists_understood hd
    have hdenotes := hq.denotes
    rw [h] at hdenotes
    cases hdenotes
  · rfl

/-- **A plain numeral that stands for a decimal is read exactly.** -/
theorem exists_exactDecimal_read (h : Numeral.plain? s.toList = some q)
    (hq : Decimal.Representable q) : ∃ d, exactDecimal.read (.str s) = .ok d ∧ d.toRat = q := by
  obtain ⟨d, hd, hvalue⟩ := Numeral.exists_ofText? h hq
  refine ⟨d, ?_, hvalue⟩
  show readDecimalText s = _
  rw [readDecimalText, hd]

/-! ## Records -/

section Records

variable {ρ α : Type} {fs : Fields ρ α} {ms : List (String × Json)} {items : List Json}
  {place : Nat} {name : String}

theorem Money.readFrom_obj (hscan : fs.scan [] ms = .ok ()) (hname : name ∈ fs.names)
    (hlook : lookup ms name = some w) (hread : exactDecimal.read w = .ok d) :
    Money.ReadFrom ⟨place, name, d⟩ (.obj ms) :=
  ⟨w, given_of_lookup hscan hname hlook, hread⟩

theorem Money.readFrom_arr (hitem : items[place]? = some w) (hread : exactDecimal.read w = .ok d) :
    Money.ReadFrom ⟨place, name, d⟩ (.arr items) :=
  ⟨w, .item hitem, hread⟩

theorem FundDeposit.money_readFrom {p : FundDeposit} (hread : codec.read v = .ok p) :
    ∀ m ∈ (Payload.deposit p).money, m.ReadFrom v := by
  simp only [Payload.money, List.forall_mem_cons]
  rcases read_record hread with ⟨ms, rfl, hscan, h⟩ | ⟨items, expected, rfl, h⟩
  · simp only [ofMembers_field, ofMembers_start] at h
    obtain ⟨_, ⟨_, ⟨_, ⟨_, rfl, _, _, -, -, rfl⟩, _, _, -, -, rfl⟩, _, _, hamount, hsum, rfl⟩,
      _, _, hvalue, hsum', rfl⟩ := h
    exact ⟨Money.readFrom_obj hscan (by simp [names, field, also]) hamount hsum,
      Money.readFrom_obj hscan (by simp [names, field, also]) hvalue hsum', List.forall_mem_nil _⟩
  · simp only [ofItems_field, ofItems_start] at h
    obtain ⟨_, _, ⟨_, _, ⟨_, _, ⟨_, _, ⟨rfl, rfl⟩, _, -, rfl⟩, _, -, rfl⟩, _, hsum, rfl⟩, _, hsum',
      rfl⟩ := h
    exact ⟨Money.readFrom_arr rfl hsum, Money.readFrom_arr rfl hsum', List.forall_mem_nil _⟩

theorem RevenueApproval.money_readFrom {p : RevenueApproval} (hread : codec.read v = .ok p) :
    ∀ m ∈ (Payload.approveRevenue p).money, m.ReadFrom v := by
  simp only [Payload.money, List.forall_mem_cons]
  rcases read_record hread with ⟨ms, rfl, hscan, h⟩ | ⟨items, expected, rfl, h⟩
  · simp only [ofMembers_field, ofMembers_start] at h
    obtain ⟨_, ⟨_, ⟨_, rfl, _, _, -, -, rfl⟩, _, _, hamount, hsum, rfl⟩, _, _, -, -, rfl⟩ := h
    exact ⟨Money.readFrom_obj hscan (by simp [names, field, also]) hamount hsum,
      List.forall_mem_nil _⟩
  · simp only [ofItems_field, ofItems_start] at h
    obtain ⟨_, _, ⟨_, _, ⟨_, _, ⟨rfl, rfl⟩, _, -, rfl⟩, _, hsum, rfl⟩, _, -, rfl⟩ := h
    exact ⟨Money.readFrom_arr rfl hsum, List.forall_mem_nil _⟩

theorem StakeChange.money_readFrom {p : StakeChange} (hread : codec.read v = .ok p) :
    ∀ m ∈ (Payload.stake p).money, m.ReadFrom v := by
  simp only [Payload.money, List.forall_mem_cons]
  rcases read_record hread with ⟨ms, rfl, hscan, h⟩ | ⟨items, expected, rfl, h⟩
  · simp only [ofMembers_field, ofMembers_start] at h
    obtain ⟨_, ⟨_, ⟨_, rfl, _, _, -, -, rfl⟩, _, _, -, -, rfl⟩, _, _, hamount, hsum, rfl⟩ := h
    exact ⟨Money.readFrom_obj hscan (by simp [names, field, also]) hamount hsum,
      List.forall_mem_nil _⟩
  · simp only [ofItems_field, ofItems_start] at h
    obtain ⟨_, _, ⟨_, _, ⟨_, _, ⟨rfl, rfl⟩, _, -, rfl⟩, _, -, rfl⟩, _, hsum, rfl⟩ := h
    exact ⟨Money.readFrom_arr rfl hsum, List.forall_mem_nil _⟩

end Records

/-- Every reader reads the sums of an event from its metadata. -/
theorem Payload.money_readFrom {name : String} {read : Reader} (h : (name, read) ∈ readers)
    {p : Payload} (hp : read v = .ok p) : ∀ m ∈ p.money, m.ReadFrom v := by
  have hkind {α : Type} {c : Codec α} {kind : α → Payload} (hv : reads c kind v = .ok p) :
      ∃ a, c.read v = .ok a ∧ p = kind a := by
    obtain ⟨a, ha, hpayload⟩ := map_eq_ok.mp hv
    exact ⟨a, ha, hpayload.symm⟩
  simp only [readers, List.mem_cons, Prod.mk.injEq, List.not_mem_nil, or_false] at h
  rcases h with ⟨-, rfl⟩ | ⟨-, rfl⟩ | ⟨-, rfl⟩ | ⟨-, rfl⟩ | ⟨-, rfl⟩ | ⟨-, rfl⟩ | ⟨-, rfl⟩ |
    ⟨-, rfl⟩ | ⟨-, rfl⟩ | ⟨-, rfl⟩ | ⟨-, rfl⟩ | ⟨-, rfl⟩ | ⟨-, rfl⟩ | ⟨-, rfl⟩ | ⟨-, rfl⟩ | ⟨-, rfl⟩
  all_goals obtain ⟨a, ha, rfl⟩ := hkind hp
  -- Most kinds carry no money; the records of the others are read above.
  all_goals first
    | exact a.money_readFrom ha
    | exact List.forall_mem_nil _

namespace InboundEvent

variable {raw : InboundEvent} {e : Event}

/-- **The sums of an event are what its texts denote**, up to less than a unit
of the last digit that a decimal has for them. -/
theorem money_understood (h : raw.normalize = .ok (some e)) :
    e.payload.event = raw.eventName ∧
      ∀ m ∈ e.payload.money, ∃ s q, Given m.place m.name raw.metadata (.str s) ∧
        Numeral.Understood s.toList q m.amount := by
  refine ⟨event_of_normalize h, fun m hm => ?_⟩
  obtain ⟨read, hread, hpayload⟩ := exists_reader_of_normalize h
  obtain ⟨w, hgiven, hsum⟩ := Payload.money_readFrom hread hpayload m hm
  obtain ⟨s, q, rfl, hunderstood⟩ := understood_of_exactDecimal hsum
  exact ⟨s, q, hgiven, hunderstood⟩

/-- A stake of a sum with an exponent, as a list of its fields. -/
def staked : InboundEvent where
  recordId := "record"
  eventName := "Stake"
  chain := 1
  contract := default
  txHash := none
  metadata := .arr
    [.str "pool", .str "0x0000000000000000000000000000000000000001", .str "+1_250.50e-2"]

/-- What is made of it. -/
def stakedEvent : Event where
  origin := staked.origin
  payload := .stake ⟨"pool", .ofNat 1, (Decimal.ofParts? 125050 4).getD .zero⟩

theorem money_understood_staked :
    staked.normalize = .ok (some stakedEvent) ∧ stakedEvent.payload.event = "Stake" ∧
      ∃ s q, Given 2 "amount" staked.metadata (.str s) ∧
        Numeral.Understood s.toList q ((Decimal.ofParts? 125050 4).getD .zero) := by
  have h : staked.normalize = .ok (some stakedEvent) := by rfl
  obtain ⟨hkind, hmoney⟩ := money_understood h
  exact ⟨h, hkind, hmoney ⟨2, "amount", _⟩ List.mem_cons_self⟩

/-- A sum with more digits than a decimal has. -/
def manyDigits : String := "123456789012.123456789012345678"

/-- The number that it denotes. -/
def manyDigitsValue : Rat := 123456789012123456789012345678 / 10 ^ (18 : Nat)

/-- The decimal that is read for it. -/
def fewerDigits : Decimal := (Decimal.ofParts? 12345678901212345678901234568 17).getD .zero

/-- A deposit of that sum. -/
def overlong : InboundEvent where
  recordId := "record"
  eventName := "Deposit"
  chain := 1
  contract := default
  txHash := none
  metadata := .obj
    [("iaoEventId", .str "offering"),
      ("buyer", .str "0x0000000000000000000000000000000000000001"),
      ("amount", .str manyDigits), ("value", .str "1")]

/-- What is made of it. -/
def overlongEvent : Event where
  origin := overlong.origin
  payload := .deposit ⟨"offering", .ofNat 1, fewerDigits, (Decimal.ofParts? 1 0).getD .zero⟩

/-- **A text of too many digits is read for another number**, though no decimal
stands for the one that it denotes. -/
theorem money_of_overlong :
    overlong.normalize = .ok (some overlongEvent) ∧
      Numeral.value? manyDigits.toList = some manyDigitsValue ∧
      ¬ Decimal.Representable manyDigitsValue ∧ fewerDigits.toRat ≠ manyDigitsValue := by
  have hplain : Numeral.plain? manyDigits.toList = some manyDigitsValue := by rfl
  have hread : exactDecimal.read (.str manyDigits) = .ok fewerDigits := by rfl
  have hother : fewerDigits.toRat ≠ manyDigitsValue := by decide +kernel
  refine ⟨by rfl, Numeral.value?_of_plain? hplain, fun hexact => ?_, hother⟩
  obtain ⟨d, hd, hvalue⟩ := exists_exactDecimal_read hplain hexact
  rw [hread, Except.ok.injEq] at hd
  exact hother (hd ▸ hvalue)

end InboundEvent

end ChainLedger
