import ChainLedger.Proofs.Chain.Receipt
import ChainLedger.Proofs.Dispatch.Atomic
import ChainLedger.Proofs.Event.Normal

/-!
# No money moves without a receipt of success

With confirmation asked for, a deposit or a claim asks for the receipt of its
transaction before anything else that matters, and goes no further unless the
answer confirms it (`Attempt.Guarded`). So while a node gives no receipt, or
one with a text for a status that does not denote one, neither is applied and
nothing is written, whatever the ledgers (`Host.fails_closed`).

A status that is no text is taken for success, also where it is the number
zero: `Desk.applied_reverted`.
-/

namespace ChainLedger

/-! ## Attempts that wait for a confirmation -/

/-- **An attempt that goes nowhere without a confirmation**: it is refused, or
asks for the receipt of its transaction and goes on only if that says so. -/
inductive Attempt.Guarded (o : Origin) : Attempt → Prop
  | refuse {r : Refusal} : Guarded o (.refuse r)
  | receipt {hash : Hash} {next : Attempt} (hhash : o.hash = .ok hash) :
      Guarded o (.ask (.receipt o.chain hash) fun answer =>
        .check (confirmed hash answer) fun _ => next)

/-- What waits for a confirmation is guarded. -/
theorem Attempt.guarded_confirm (o : Origin) (next : Attempt) :
    (confirm true o next).Guarded o := by
  rw [confirm, if_pos rfl]
  cases hhash : o.hash with
  | ok hash => exact .receipt hhash
  | error r => exact .refuse

/-- **Deposits and claims are guarded**, whatever ledgers are seen. -/
theorem Event.guarded_attempt {e : Event}
    (he : e.payload.event = "Deposit" ∨ e.payload.event = "ClaimRevenue") (seen : Ledgers) :
    (e.attempt true seen).Guarded e.origin := by
  have hcheck {α : Type} (x : Except Refusal α) (next : α → Attempt) :
      (Attempt.check x fun a => .confirm true e.origin (next a)).Guarded e.origin := by
    cases x with
    | ok a => exact Attempt.guarded_confirm _ _
    | error r => exact .refuse
  obtain ⟨o, p⟩ := e
  cases p with
  | deposit p => exact hcheck _ _
  | claimRevenue p => exact hcheck _ _
  | _ => exact absurd he (by simp [Payload.event])

/-! ## Dispatching them -/

namespace Host

variable {σ : Type} {h : Host σ} {e : Event}

/-- What is guarded comes to nothing while nothing is confirmed. -/
theorem run_of_guarded
    (hnone : ∀ hash, e.origin.hash = .ok hash →
      ∀ s, ∃ r, confirmed hash (h.answer (.receipt e.origin.chain hash) s).1 = .error r)
    {a : Attempt} (ha : a.Guarded e.origin) (s : σ) :
    ∃ r s', h.run a s = (.error r, s') ∧ h.Looks s s' := by
  cases ha with
  | @refuse r => exact ⟨r, s, rfl, .refl⟩
  | @receipt hash next hhash =>
    obtain ⟨r, hr⟩ := hnone hash hhash s
    refine ⟨r, (h.answer (.receipt e.origin.chain hash) s).2, ?_, .single (.answer _ s)⟩
    simp only [run, hr, Attempt.check]

/-- **Nor do any number of attempts.** -/
theorem attempts_of_guarded
    (hnone : ∀ hash, e.origin.hash = .ok hash →
      ∀ s, ∃ r, confirmed hash (h.answer (.receipt e.origin.chain hash) s).1 = .error r)
    (hguarded : ∀ seen, (e.attempt true seen).Guarded e.origin) (more : Nat) (s : σ) :
    ∃ r s', h.attempts true e more s = (.error r, s') ∧ h.Looks s s' := by
  induction more generalizing s with
  | zero => exact run_of_guarded hnone (hguarded _) s
  | succ more ih =>
    obtain ⟨r, s₁, hrun, hlooks⟩ := run_of_guarded hnone (hguarded (h.ledgers s)) s
    rw [attempts, attempt, hrun]
    simp only
    split
    · obtain ⟨r', s', hrest, hlooks'⟩ := ih s₁
      exact ⟨r', s', hrest, hlooks.trans hlooks'⟩
    · exact ⟨r, s₁, rfl, hlooks⟩

/-- **Confirmation fails closed.** Where receipts are asked of a node that has
none of success to give, a deposit or a claim is not applied. Nothing is done
for it but look; the ledgers stay as they are unless something else writes. -/
theorem fails_closed (settings : DispatchSettings) (raw : InboundEvent) {g : Chains σ}
    (hverify : settings.verifyReceipts = true)
    (hname : raw.eventName = "Deposit" ∨ raw.eventName = "ClaimRevenue")
    (hasks : ∀ hash s, (h.answer (.receipt raw.chain hash) s).1 =
      (Chains.answered (g.receiptOf raw.chain hash) s).1)
    (hnode : ∀ hash, raw.origin.hash = .ok hash → ∀ url s v,
      (g.net.request url "eth_getTransactionReceipt" (.arr [.str hash.toText]) s).1 = .ok v →
      v.Unconfirmed) (s : σ) :
    (h.dispatch settings raw s).1.isApplied = false ∧
      h.Looks s (h.dispatch settings raw s).2 ∧
      (h.Quiet → h.ledgers (h.dispatch settings raw s).2 = h.ledgers s) := by
  have hends : (h.dispatch settings raw s).1.isApplied = false ∧
      h.Looks s (h.dispatch settings raw s).2 := by
    unfold dispatch
    cases hraw : raw.normalize with
    | error r => exact ⟨Report.isApplied_ofRefusal r, .refl⟩
    | ok found =>
      cases found with
      | none => exact ⟨rfl, .refl⟩
      | some e =>
        have horigin : e.origin = raw.origin := InboundEvent.origin_of_normalize hraw
        have hnone (hash : Hash) (hhash : e.origin.hash = .ok hash) (s : σ) :
            ∃ r, confirmed hash (h.answer (.receipt e.origin.chain hash) s).1 = .error r := by
          rw [horigin] at hhash ⊢
          rw [show raw.origin.chain = raw.chain from rfl, hasks]
          exact g.confirmed_eq_error (hnode hash hhash) s
        rw [← InboundEvent.event_of_normalize hraw] at hname
        obtain ⟨r, s', hrun, hlooks⟩ :=
          attempts_of_guarded hnone (Event.guarded_attempt hname) settings.maxConflictRetries s
        simp only [apply, hverify, hrun]
        exact ⟨Report.isApplied_ofRefusal r, hlooks⟩
  exact ⟨hends.1, hends.2, fun hq => hq.ledgers_looks hends.2⟩

end Host

/-! ## A node and its receipts -/

/-- Ledgers, and the chains that are connected. -/
structure Desk where
  ledgers : Ledgers
  registry : Registry

namespace Desk

/-- One chain with one node, which is in step and answers all else with one
value. -/
def chains (value : Json) : Chains Desk where
  settings := { endpoints := [⟨1, ["node"], []⟩] }
  net :=
    { request := fun _ method _ s =>
        (.ok (if method = "eth_syncing" then .bool false else value), s)
      sleep := fun _ s => s
      choose := fun _ s => (0, s) }
  registry := Desk.registry
  setRegistry r s := { s with registry := r }

/-- Every rate is a hundred. -/
def rate (_ : Nat) (_ : Address) (s : Desk) : Except Refusal Decimal × Desk := (.ok .hundred, s)

/-- A host that asks this node. -/
def host (value : Json) : Host Desk where
  ledgers := Desk.ledgers
  write l s := { s with ledgers := l }
  clock s := (.still .epoch, s)
  answer q s :=
    (((chains value).answer rate q s).1,
      { s with registry := ((chains value).answer rate q s).2.registry })
  fire _ s := (true, s)

theorem ledgers_host (value : Json) (s : Desk) : (host value).ledgers s = s.ledgers := rfl

theorem quiet_host (value : Json) : (host value).Quiet where
  write _ _ := rfl
  clock _ := rfl
  answer _ _ := rfl
  fire _ _ := rfl

/-- Ledgers with an offering on its chain, and no chain connected yet. -/
def sample : Desk := ⟨sampleLedgers, {}⟩

/-- The text of a hash. -/
def hashText : String := Hash.toText (.ofNat 171)

/-- A deposit under this hash. -/
def deposit : InboundEvent where
  recordId := "record"
  eventName := "Deposit"
  chain := 1
  contract := default
  txHash := some hashText
  metadata := .obj
    [("iaoEventId", .str "offering"),
      ("buyer", .str "0x0000000000000000000000000000000000000001"),
      ("amount", .str "10"), ("value", .str "2.5")]

/-- A receipt under this hash, with a status. -/
def receipt (status : Json) : Json :=
  .obj [("status", status), ("transactionHash", .str hashText), ("blockNumber", .str "0x1")]

theorem unconfirmed_receipt_zero : (receipt (.str "0x0")).Unconfirmed := by
  refine .inr ⟨"0x0", by decide, fun hone => ?_⟩
  have hword : Quantity.word "0x0" = .ok 1 := Quantity.word_eq_one.mpr hone
  have hzero : Quantity.word "0x0" = .ok 0 := by decide +kernel
  rw [hzero] at hword
  cases hword

theorem fails_closed_deposit :
    ((host (receipt (.str "0x0"))).dispatch ⟨true, 1⟩ deposit sample).1.isApplied = false ∧
      ((host (receipt (.str "0x0"))).dispatch ⟨true, 1⟩ deposit sample).2.ledgers = sampleLedgers ∧
      ((host (receipt (.str "0x1"))).dispatch ⟨true, 1⟩ deposit sample).1.isApplied = true := by
  have hnode : ∀ hash, deposit.origin.hash = .ok hash → ∀ url s v,
      ((chains (receipt (.str "0x0"))).net.request url "eth_getTransactionReceipt"
        (.arr [.str hash.toText]) s).1 = .ok v → v.Unconfirmed := by
    intro _ _ _ _ v hv
    rw [← Except.ok.inj hv]
    exact unconfirmed_receipt_zero
  obtain ⟨hreport, -, hledgers⟩ :=
    Host.fails_closed (h := host (receipt (.str "0x0"))) ⟨true, 1⟩ deposit
      (g := chains (receipt (.str "0x0"))) rfl (.inl rfl) (fun _ _ => rfl) hnode sample
  have hkept := hledgers (quiet_host _)
  rw [ledgers_host, ledgers_host] at hkept
  exact ⟨hreport, hkept, by decide +kernel⟩

/-- **A deposit that was reverted is applied** if the node gives its status as
the number zero. -/
theorem applied_reverted :
    (receipt (.nat 0)).isNull = false ∧ (receipt (.nat 0)).get? "status" = some (.nat 0) ∧
      ((host (receipt (.nat 0))).dispatch ⟨true, 1⟩ deposit sample).1.isApplied = true ∧
      sample.ledgers.purchases.contains hashText = false ∧
      ((host (receipt (.nat 0))).dispatch ⟨true, 1⟩ deposit sample).2.ledgers.purchases.contains
        hashText = true := by
  exact ⟨rfl, rfl, by decide +kernel, by decide +kernel, by decide +kernel⟩

end Desk

end ChainLedger
