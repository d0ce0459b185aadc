import ChainLedger.Proofs.Chain.RoundTrip

/-!
# How a call of a contract ends

A call sends one and the same request until an answer is no failure in
passing, or until it may not try again; the last answer decides what the call
comes to (`Call.outcome`). A contract's own refusal is never a failure in
passing, in whatever letter case it is told and whatever else the message says
(`ChainError.ofRpc_of_tellsRefusal`), so it ends a call at once. Main
statement: `Chains.call_settles`.
-/

namespace ChainLedger

/-! ## Refusals of contracts -/

/-- Two characters are the same letter in some case, or the same character. -/
def SameLetter (a b : Char) : Prop := a.toLower = b.toLower

/-- **A message says a piece**, in any letter case. -/
def Says (message piece : String) : Prop :=
  ∃ part, part <:+: message.toList ∧ List.Forall₂ SameLetter part piece.toList

/-- What nodes say when it is the contract that refuses. -/
def refusals : List String :=
  ["execution reverted", "nonexistent token", "token does not exist", "invalid token id"]

/-- **A code and a message tell of a refusal** by a contract. -/
def TellsRefusal (code : Int) (message : String) : Prop :=
  code = 3 ∨ ∃ piece ∈ refusals, Says message piece

/-- A piece in lower case is found in a message that says it. -/
theorem Says.occurs {message piece : String} (h : Says message piece)
    (hpiece : Text.lower piece.toList = piece.toList) :
    Text.occurs piece (Text.lower message.toList) = true := by
  obtain ⟨part, hpart, hsame⟩ := h
  have hlower : part.map Char.toLower = piece.toList.map Char.toLower :=
    List.forall₂_eq_eq_eq ▸ (List.forall₂_map_left_iff.mpr (List.forall₂_map_right_iff.mpr hsame))
  rw [Text.occurs_iff, ← hpiece, Text.lower, ← hlower]
  exact hpart.map Char.toLower

namespace ChainError

/-- **A refusal by a contract is read as one**, whatever else is said. -/
theorem ofRpc_of_tellsRefusal {code : Int} {message : String} (h : TellsRefusal code message) :
    ∃ m, ofRpc code message = .tokenNotExist m ∨ ofRpc code message = .reverted m := by
  have hlower : ∀ piece ∈ refusals, Text.lower piece.toList = piece.toList := by decide
  unfold ofRpc
  dsimp only
  split
  · exact ⟨_, .inl rfl⟩
  · next hmissing =>
    split
    · exact ⟨_, .inr rfl⟩
    · next hrefused =>
      -- None of the pieces was found, and the code is another one.
      simp only [Bool.or_eq_true, decide_eq_true_eq, not_or] at hmissing hrefused
      rcases h with hcode | ⟨piece, hpiece, hsays⟩
      · exact absurd hcode hrefused.2
      · have hfound := hsays.occurs (hlower piece hpiece)
        simp only [refusals, List.mem_cons, List.not_mem_nil, or_false] at hpiece
        rcases hpiece with rfl | rfl | rfl | rfl
        · exact absurd hfound hrefused.1
        · exact absurd hfound hmissing.1.1
        · exact absurd hfound hmissing.1.2
        · exact absurd hfound hmissing.2

/-- So it is no failure in passing. -/
theorem not_failsInPassing_ofRpc {code : Int} {message : String} {α : Type}
    (h : TellsRefusal code message) :
    ¬ FailsInPassing (.error (ofRpc code message) : Except ChainError α) := by
  obtain ⟨m, hm | hm⟩ := ofRpc_of_tellsRefusal h
  all_goals
    rw [hm]
    exact Bool.false_ne_true

end ChainError

/-! ## Calls -/

/-- The request that calls a contract with some bytes. -/
def Contract.request (c : Contract) (data : Bytes) : Request where
  url := c.url
  method := "eth_call"
  params := .arr [.obj [("to", .str c.address.lower), ("data", .str (Hex.encode0x data))],
    .str "latest"]

/-- The bytes that an answer to a call returns. -/
def returned : Except ChainError Json → Except ChainError Bytes
  | .error e => .error e
  | .ok v =>
    match v.asText? with
    | none => .error (.decode .resultNotText)
    | some s => (Decode.bytes s).mapError .decode

/-- **What a call comes to**, by the answer that decides it. -/
def Call.outcome {α : Type} (q : Call α) (answer : Except ChainError Json) : Except ChainError α :=
  match returned answer with
  | .error e => .error e
  | .ok bs =>
    match q.decode bs with
    | some a => .ok a
    | none => .error (.decode (.badResult q.signature))

/-- Bytes that cannot be decoded are no failure in passing. -/
theorem failsInPassing_returned (answer : Except ChainError Json) :
    FailsInPassing (returned answer) ↔ FailsInPassing answer := by
  cases answer with
  | error e => rfl
  | ok v =>
    simp only [returned]
    cases v.asText? with
    | none => exact iff_of_false Bool.false_ne_true id
    | some s =>
      cases hbytes : Decode.bytes s with
      | ok bs => exact iff_of_false (by simp [Except.mapError, hbytes, FailsInPassing]) id
      | error fault =>
        exact iff_of_false (by simp [Except.mapError, hbytes, FailsInPassing, ChainError.isTransient]) id

namespace Chains

variable {σ α : Type} (g : Chains σ) {c : Contract}

theorem runFrom_sendCall (data : Bytes) (s : σ) : (g.sendCall c data).runFrom s =
    (returned (g.net.ask (c.request data) s).1, (g.net.ask (c.request data) s).2) := by
  simp only [sendCall, Session.runFrom_bind, Link.send, Session.runFrom_of, Link.ask,
    Contract.request]
  rcases g.net.request c.url "eth_call" _ s with ⟨_ | v, s'⟩
  · rfl
  · simp only [returned]
    cases v.asText? <;> rfl

/-- A call ends where the search for an answer that is no failure in passing
stops. -/
theorem runFrom_call (q : Call α) {s : σ} {k : ℕ}
    (hk : StopsAt (¬ FailsInPassing ·)
      (g.net.reply g.settings.retry.delayMs (fun _ => c.request q.data) s)
      (g.settings.retry.maxAttempts - 1) k) :
    (g.call c q).runFrom s =
      (q.outcome (g.net.reply g.settings.retry.delayMs (fun _ => c.request q.data) s k),
        g.net.ended g.settings.retry.delayMs (fun _ => c.request q.data) s k) := by
  have htries := g.net.runFrom_tries (g.runFrom_sendCall q.data) failsInPassing_returned hk
  simp only [call, Link.retry, Session.runFrom_bind, htries, Call.outcome]
  cases returned _ with
  | error e => rfl
  | ok bs =>
    simp only
    cases q.decode bs <;> rfl

/-- **How often a call asks, and what it comes to.** It sends its request as
often as there are answers up to the first that is no failure in passing, and
no more often than allowed; the answer to the last request decides. A code and
a message that tell of a refusal are read as one and as no failure in passing,
so the call asks no more after such an answer, and comes to it. -/
theorem call_settles (c : Contract) (q : Call α) (s : σ) :
    let delay := g.settings.retry.delayMs
    let allowed := max g.settings.retry.maxAttempts 1
    let asks : ℕ → Request := fun _ => c.request q.data
    let answers := g.net.reply delay asks s
    let outcome := ((g.call c q).runFrom s).1
    let sent := ((g.recorded.call c q).runFrom (s, [])).2.2
    (∃ n, sent = g.net.roundTrips delay asks s (n + 1) ∧
      ((n + 1 : ℕ) : ℕ∞) = min (placeOfFirst (¬ FailsInPassing ·) answers) allowed ∧
      outcome = q.outcome (answers n)) ∧
    ∀ code message, TellsRefusal code message →
      (∃ m, ChainError.ofRpc code message = .tokenNotExist m ∨
        ChainError.ofRpc code message = .reverted m) ∧
      (ChainError.ofRpc code message).isTransient = false ∧
      ∀ n, answers n = .error (.ofRpc code message) → sent.length ≤ n + 1 ∧
        (sent.length = n + 1 → outcome = .error (.ofRpc code message)) := by
  intro delay allowed asks answers outcome sent
  obtain ⟨k, hk⟩ := exists_stopsAt (¬ FailsInPassing ·) answers (g.settings.retry.maxAttempts - 1)
  have houtcome : outcome = q.outcome (answers k) := congrArg (·.1) (g.runFrom_call q hk)
  have hsent : sent = g.net.roundTrips delay asks s (k + 1) := by
    have hk' : StopsAt (¬ FailsInPassing ·) (g.recorded.net.reply delay asks (s, []))
        (g.settings.retry.maxAttempts - 1) k := by
      rwa [recorded, Link.reply_recorded]
    have hrun := congrArg (·.2.2) (g.recorded.runFrom_call q hk')
    exact hrun.trans (congrArg Prod.snd (g.net.ended_recorded k))
  have hallowed : g.settings.retry.maxAttempts - 1 + 1 = allowed := by omega
  refine ⟨⟨k, hsent, hallowed ▸ hk.succ_eq_min, houtcome⟩, fun code message htells => ?_⟩
  have hfinal := ChainError.not_failsInPassing_ofRpc (α := Json) htells
  refine ⟨ChainError.ofRpc_of_tellsRefusal htells, Bool.eq_false_iff.mpr hfinal, fun n hn => ?_⟩
  rw [hsent, Link.length_roundTrips]
  have hle : k ≤ n := Nat.le_of_not_lt fun hlt => hk.before n hlt (hn ▸ hfinal)
  refine ⟨Nat.succ_le_succ hle, fun heq => ?_⟩
  obtain rfl := Nat.succ.inj heq
  rw [houtcome, hn]
  rfl

/-- A node that times out once, and then says that the contract refuses. -/
def refusing : Link ℕ where
  request _ _ _ n :=
    (if n = 0 then .error (.transient .timeout "rpc")
      else .error (.ofRpc (-32000) "timeout: Execution REVERTED"), n + 1)
  sleep _ n := n
  choose _ n := (0, n)

/-- The chains behind that node, with five tries for each call. -/
def refusingChains : Chains ℕ where
  settings := { retry := ⟨5, 1000⟩ }
  net := refusing
  registry _ := {}
  setRegistry _ n := n

/-- The second answer is final, though its message begins with a timeout. -/
theorem call_settles_refused :
    TellsRefusal (-32000) "timeout: Execution REVERTED" ∧
      ((refusingChains.recorded.call ⟨.fnft, .ofNat 0xbb, 97, "http://a"⟩ Call.totalSupply).runFrom
        (0, [])).2.2.length ≤ 2 :=
  have htells : TellsRefusal (-32000) "timeout: Execution REVERTED" :=
    .inr ⟨"execution reverted", by decide, "Execution REVERTED".toList,
      ⟨"timeout: ".toList, [], by decide⟩, by simp [SameLetter]⟩
  ⟨htells, (((refusingChains.call_settles ⟨.fnft, .ofNat 0xbb, 97, "http://a"⟩
    Call.totalSupply 0).2 _ _ htells).2.2 1 rfl).1⟩

end Chains

end ChainLedger
