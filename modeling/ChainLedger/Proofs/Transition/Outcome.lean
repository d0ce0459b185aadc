import ChainLedger.Proofs.Ledger.Refusal
import ChainLedger.Proofs.Transition.Move

/-!
# Outcomes where answers are known

Where every question has one answer, an attempt comes to one end
(`Attempt.resolve`), and an event has one outcome from given ledgers at given
readings of the clock (`Event.outcome`). The events of the asset pipeline make
one move at most there (`Event.Moves`): an outcome without a refusal is a move
that was open (`Event.brought_of_outcome`), and a move that is open is refused
only where a watermark would leave the calendar (`Event.outcome_of_open`).
-/

namespace ChainLedger

open Collection

variable {answers : (q : Question) → q.Answer} {l l' : Ledgers} {clock : Clock} {fx : List Effect}

/-! ## Outcomes -/

namespace Attempt

/-- **Where an attempt ends** when every question has its answer. -/
def resolve (answers : (q : Question) → q.Answer) : Attempt → Except Refusal Commit
  | .refuse r => .error r
  | .ask q next => resolve answers (next (answers q))
  | .commit c => .ok c

theorem resolve_check {α : Type} {x : Except Refusal α} {next : α → Attempt} :
    (check x next).resolve answers = x >>= fun a => (next a).resolve answers := by
  cases x <;> rfl

end Attempt

namespace Event

/-- **What becomes of an event** when every question has its answer. -/
def outcome (answers : (q : Question) → q.Answer) (verify : Bool) (e : Event) (clock : Clock)
    (l : Ledgers) : Except Refusal (Ledgers × List Effect) := do
  let c ← (e.attempt verify l).resolve answers
  c clock l

/-! ## Moves of events -/

/-- **The move that an event makes**, if the chain has what it needs for it. -/
inductive Moves (answers : (q : Question) → q.Answer) : Event → Move → Prop
  | mint {o p token owner} (htoken : Quantity.tokenId p.tokenId = .ok token)
      (howner : p.ownerOr (answers (.owner o.chain token)) = .ok owner) :
      Moves answers ⟨o, .mintNft p⟩ (.mint p.tokenId)
  | fractionalize {o p supply}
      (hsupply : FnftMinted.supply (answers (.supply o.chain p.tokenAddress)) = .ok supply) :
      Moves answers ⟨o, .mintFnft p⟩ (.fractionalize p.fnftId supply)
  | offer {o p} : Moves answers ⟨o, .createOffering p⟩ (.offer p.offeringId)
  | takeIn {o p} : Moves answers ⟨o, .depositNft p⟩ (.takeIn p.assetId)

variable {e : Event} {m m' : Move} {verify : Bool}

/-- An event makes one move at most. -/
theorem Moves.unique (h : e.Moves answers m) (h' : e.Moves answers m') : m = m' := by
  cases h with
  | fractionalize hsupply =>
    cases h' with
    | fractionalize hsupply' => rw [Except.ok.inj (hsupply.symm.trans hsupply')]
  | mint => cases h'; rfl
  | offer => cases h'; rfl
  | takeIn => cases h'; rfl

end Event

/-- The kinds of events that take an asset through its pipeline. -/
def Payload.isPipeline : Payload → Bool
  | .mintNft _ => true
  | .mintFnft _ => true
  | .createOffering _ => true
  | .depositNft _ => true
  | _ => false

/-! ## What is open goes through -/

theorem TokenRef.mint_ok_or_trap {p : TokenRef} (owner : Address)
    (hopen : (Move.mint p.tokenId).Open l) :
    (∃ out, p.mint owner clock l = .ok out) ∨ p.mint owner clock l = .error (.trap .instant) := by
  obtain ⟨nft, hnft, hdraft, asset, hasset⟩ := hopen
  rw [mint, hnft, orRefuse_some_bind, require_bind_of hdraft]
  refine bind_ok_or_trap (update_ok_or_trap _ _ hnft) fun _ _ => ?_
  exact bind_ok_or_trap (update_ok_or_trap _ _ hasset) fun _ _ => .inl ⟨_, rfl⟩

theorem FnftMinted.mint_ok_or_trap {p : FnftMinted} (o : Origin) (supply : Decimal)
    (hopen : (Move.fractionalize p.fnftId supply).Open l) :
    (∃ out, p.mint o supply clock l = .ok out) ∨
      p.mint o supply clock l = .error (.trap .instant) := by
  obtain ⟨fnft, hfnft, hdraft⟩ := hopen
  rw [mint, hfnft, orRefuse_some_bind, require_bind_of hdraft]
  refine bind_ok_or_trap (update_ok_or_trap _ _ hfnft) fun _ _ => ?_
  refine bind_ok_or_trap (updateMany_ok_or_trap ..) fun _ _ => ?_
  exact bind_ok_or_trap (updateMany_ok_or_trap ..) fun _ _ => .inl ⟨_, rfl⟩

theorem OfferingRef.create_ok_or_trap {p : OfferingRef} (hopen : (Move.offer p.offeringId).Open l) :
    (∃ out, p.create clock l = .ok out) ∨ p.create clock l = .error (.trap .instant) := by
  obtain ⟨offering, hoffering, hstatus⟩ := hopen
  rw [create, hoffering, orRefuse_some_bind, require_bind_of hstatus]
  refine bind_ok_or_trap (update_ok_or_trap _ _ hoffering) fun _ _ => ?_
  exact bind_ok_or_trap (updateMany_ok_or_trap ..) fun _ _ => .inl ⟨_, rfl⟩

theorem AssetRef.takeIn_ok_or_trap {p : AssetRef} (hopen : (Move.takeIn p.assetId).Open l) :
    (∃ out, p.takeIn clock l = .ok out) ∨ p.takeIn clock l = .error (.trap .instant) := by
  obtain ⟨asset, hasset, hcustody⟩ := hopen
  rw [takeIn, hasset, orRefuse_some_bind, require_bind_of hcustody]
  exact bind_ok_or_trap (update_ok_or_trap _ _ hasset) fun _ _ => .inl ⟨_, rfl⟩

namespace Event

variable {e : Event} {m : Move} {verify : Bool}

/-- **A move that is open goes through**, or a watermark would leave the
calendar. -/
theorem outcome_of_open (clock : Clock) (hm : e.Moves answers m) (hopen : m.Open l) :
    (∃ out, e.outcome answers verify clock l = .ok out) ∨
      e.outcome answers verify clock l = .error (.trap .instant) := by
  cases hm with
  | @mint o p token owner htoken howner =>
    obtain ⟨nft, hnft, hdraft, hasset⟩ := hopen
    have hmintable : p.mintable l = .ok token := by
      rw [TokenRef.mintable, hnft, orRefuse_some_bind, require_bind_of hdraft, htoken]
      rfl
    simp only [outcome, attempt, TokenRef.attemptMint, Attempt.resolve_check, Attempt.resolve,
      hmintable, howner, ok_bind]
    exact p.mint_ok_or_trap owner ⟨nft, hnft, hdraft, hasset⟩
  | @fractionalize o p supply hsupply =>
    obtain ⟨fnft, hfnft, hdraft⟩ := hopen
    have hmintable : p.mintable l = .ok () := by
      rw [FnftMinted.mintable, hfnft, orRefuse_some_bind]
      exact require_eq_ok.mpr hdraft
    simp only [outcome, attempt, FnftMinted.attempt, Attempt.resolve_check, Attempt.resolve,
      hmintable, hsupply, ok_bind]
    exact p.mint_ok_or_trap o supply ⟨fnft, hfnft, hdraft⟩
  | offer => exact OfferingRef.create_ok_or_trap hopen
  | takeIn => exact AssetRef.takeIn_ok_or_trap hopen

/-- What refuses a move that is open. -/
theorem eq_trap_of_open {r : Refusal} (hm : e.Moves answers m) (hopen : m.Open l)
    (h : e.outcome answers verify clock l = .error r) : r = .trap .instant := by
  rcases outcome_of_open clock hm hopen with ⟨out, hout⟩ | htrap
  · cases h.symm.trans hout
  · exact Except.error.inj (h.symm.trans htrap)

/-- A token that is minted is one whose owner the chain answered. -/
theorem of_outcome_mintNft {o : Origin} {p : TokenRef}
    (h : outcome answers verify ⟨o, .mintNft p⟩ clock l = .ok (l', fx)) :
    ∃ token owner, Quantity.tokenId p.tokenId = .ok token ∧
      p.ownerOr (answers (.owner o.chain token)) = .ok owner ∧
      p.mint owner clock l = .ok (l', fx) := by
  simp only [outcome, attempt, TokenRef.attemptMint, Attempt.resolve_check, Attempt.resolve,
    bind_eq_ok] at h
  obtain ⟨_, ⟨token, hmintable, owner, howner, ⟨⟩⟩, h⟩ := h
  simp only [TokenRef.mintable, bind_eq_ok, mapError_eq_ok] at hmintable
  obtain ⟨-, -, -, -, htoken⟩ := hmintable
  exact ⟨token, owner, htoken, howner, h⟩

/-- A fractional token that is minted has the supply that the chain answered. -/
theorem of_outcome_mintFnft {o : Origin} {p : FnftMinted}
    (h : outcome answers verify ⟨o, .mintFnft p⟩ clock l = .ok (l', fx)) :
    ∃ supply, FnftMinted.supply (answers (.supply o.chain p.tokenAddress)) = .ok supply ∧
      p.mint o supply clock l = .ok (l', fx) := by
  simp only [outcome, attempt, FnftMinted.attempt, Attempt.resolve_check, Attempt.resolve,
    bind_eq_ok] at h
  obtain ⟨_, ⟨-, -, supply, hsupply, ⟨⟩⟩, h⟩ := h
  exact ⟨supply, hsupply, h⟩

/-- **An event that is not refused** makes a move that is open. -/
theorem brought_of_outcome (hl : l.Keyed) (he : e.payload.isPipeline = true)
    (h : e.outcome answers verify clock l = .ok (l', fx)) :
    ∃ m, e.Moves answers m ∧ m.Open l ∧ l.Brought (· = m) l' := by
  obtain ⟨o, p⟩ := e
  cases p with
  | mintNft p =>
    obtain ⟨token, owner, htoken, howner, h⟩ := of_outcome_mintNft h
    exact ⟨_, .mint htoken howner, TokenRef.brought_mint h⟩
  | mintFnft p =>
    obtain ⟨supply, hsupply, h⟩ := of_outcome_mintFnft h
    exact ⟨_, .fractionalize hsupply, FnftMinted.brought_mint hl h⟩
  | createOffering p => exact ⟨_, .offer, OfferingRef.brought_create hl h⟩
  | depositNft p => exact ⟨_, .takeIn, AssetRef.brought_takeIn h⟩
  | _ => cases he

end Event

end ChainLedger
