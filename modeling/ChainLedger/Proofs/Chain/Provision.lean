import ChainLedger.Proofs.Chain.RoundTrip

/-!
# Going around the endpoints of a chain

Probes go to one endpoint after the other, around and around from the one that
was chosen. An answer that the node is in step ends them, and so does the last
probe that the policy allows: probing is a search along the row of its own
replies (`Link.probe_of_stopsAt`). From there `Link.provision_rotates` says
which endpoint is taken, how many probes that costs, and when there is none to
take; as many probes as there are endpoints reach each of them, wherever they
start (`exists_around_eq`).
-/

namespace ChainLedger

/-- **An answer to a probe says that the node is in step**: it is `false`, or
nothing at all. -/
def InStep (answer : Except ChainError Json) : Prop :=
  answer = .ok (.bool false) ∨ answer = .ok .null

/-- Every other answer, and every error, counts as one of a node that is behind. -/
theorem saysSyncing_eq_false_iff {v : Json} :
    Link.saysSyncing v = false ↔ v = .bool false ∨ v = .null := by
  cases v with
  | bool b => simp [Link.saysSyncing]
  | null => simp [Link.saysSyncing]
  | num n => simp [Link.saysSyncing]
  | str s => simp [Link.saysSyncing]
  | arr items => simp [Link.saysSyncing]
  | obj members => simp [Link.saysSyncing]

section Around

variable {urls : List String} (h : urls ≠ [])

/-- The endpoint that is so many places after another, around and around. -/
def around (start i : ℕ) : String :=
  urls.get ⟨(start + i) % urls.length, Nat.mod_lt _ (List.length_pos_iff.mpr h)⟩

/-- The probe of that endpoint. -/
def probeAt (start i : ℕ) : Request := ⟨around h start i, "eth_syncing", .arr []⟩

theorem around_mem (start i : ℕ) : around h start i ∈ urls := List.get_mem _ _

theorem getElem?_around (start i : ℕ) :
    urls[(start + i) % urls.length]? = some (around h start i) :=
  List.getElem?_eq_getElem _

/-- **Once around reaches every endpoint**, wherever it starts. -/
theorem exists_around_eq {url : String} (hurl : url ∈ urls) (start : ℕ) :
    ∃ i < urls.length, around h start i = url := by
  obtain ⟨j, hj, rfl⟩ := List.getElem_of_mem hurl
  have hpos : 0 < urls.length := by omega
  have hstart : start % urls.length < urls.length := Nat.mod_lt _ hpos
  -- From the start it is so far to the end, and then `j` places more.
  refine ⟨(urls.length - start % urls.length + j) % urls.length, Nat.mod_lt _ hpos, ?_⟩
  have hplace : (start + (urls.length - start % urls.length + j) % urls.length) % urls.length = j := by
    rw [Nat.add_mod, Nat.mod_mod, ← Nat.add_mod]
    have hdiv : urls.length * (start / urls.length) + start % urls.length = start :=
      Nat.div_add_mod _ _
    have hsum : start + (urls.length - start % urls.length + j) =
        j + urls.length * (start / urls.length + 1) := by
      rw [Nat.mul_add_one]
      omega
    rw [hsum, Nat.add_mul_mod_self_left, Nat.mod_eq_of_lt hj]
  simp only [around, List.get_eq_getElem, hplace]

end Around

namespace Link

variable {σ : Type} (net : Link σ) {urls : List String} (h : urls ≠ [])

theorem isSynced_eq (url : String) (s : σ) :
    ((net.isSynced url s).1 = true ↔ InStep (net.ask ⟨url, "eth_syncing", .arr []⟩ s).1) ∧
      (net.isSynced url s).2 = (net.ask ⟨url, "eth_syncing", .arr []⟩ s).2 := by
  simp only [isSynced, ask, InStep]
  rcases net.request url "eth_syncing" (.arr []) s with ⟨_ | v, s'⟩
  · simp
  · simp [saysSyncing_eq_false_iff]

variable {cooldown more start k : ℕ} {s : σ}

/-- **Probing is a search** for the first answer that the node is in step. -/
theorem probe_of_stopsAt
    (hk : StopsAt InStep (net.reply cooldown (probeAt h start) s) more k) :
    (InStep (net.reply cooldown (probeAt h start) s k) →
      net.probe urls cooldown more start s =
        (some (around h start k), net.ended cooldown (probeAt h start) s k)) ∧
    (¬ InStep (net.reply cooldown (probeAt h start) s k) →
      net.probe urls cooldown more start s = (none, net.ended cooldown (probeAt h start) s k)) := by
  induction more generalizing start s k with
  | zero =>
    obtain rfl := Nat.le_zero.mp hk.le
    obtain ⟨hsynced, hstate⟩ := net.isSynced_eq (around h start 0) s
    rw [probe, ← Nat.add_zero start, getElem?_around h]
    simp only [Nat.add_zero, reply, ended, after, probeAt]
    rw [← hsynced, ← hstate]
    rcases net.isSynced (around h start 0) s with ⟨_ | _, s'⟩ <;> simp
  | succ more ih =>
    obtain ⟨hsynced, hstate⟩ := net.isSynced_eq (around h start 0) s
    rw [probe, ← Nat.add_zero start, getElem?_around h]
    simp only [Nat.add_zero]
    cases k with
    | zero =>
      have hfound : (net.isSynced (around h start 0) s).1 = true :=
        hsynced.mpr (hk.stop.resolve_right (by omega))
      refine ⟨fun _ => ?_, fun hnot => absurd (hsynced.mp hfound) hnot⟩
      rw [ended, after, probeAt, ← hstate]
      rcases hout : net.isSynced (around h start 0) s with ⟨_ | _, s'⟩
      · rw [hout] at hfound
        cases hfound
      · rfl
    | succ k =>
      have hbehind : (net.isSynced (around h start 0) s).1 = false :=
        Bool.eq_false_iff.mpr fun hfound => hk.before 0 (Nat.succ_pos k) (hsynced.mp hfound)
      have hshift : (fun i => probeAt h start (i + 1)) = probeAt h (start + 1) := by
        funext i
        simp only [probeAt, around, Nat.add_right_comm start 1 i, Nat.add_assoc]
      have haround : around h start (k + 1) = around h (start + 1) k := by
        simp only [around, Nat.add_right_comm start 1 k, Nat.add_assoc]
      have hrest := hk.tail
      simp only [reply_succ, hshift] at hrest
      rw [reply_succ, ended_succ, hshift, haround]
      have hrun := ih hrest
      rcases hout : net.isSynced (around h start 0) s with ⟨_ | _, s'⟩
      · rw [hout] at hstate
        obtain rfl : s' = _ := hstate
        exact hrun
      · rw [hout] at hbehind
        cases hbehind

/-- **Provisioning ends as its search does**: with the endpoint that was found
in step, or with the error that there is none. -/
theorem provision_of_stopsAt (chain : ℕ) {policy : ProbePolicy} {s s₀ : σ}
    (hchoose : net.choose urls.length s = (start, s₀))
    (hk : StopsAt InStep (net.reply policy.cooldownMs (probeAt h start) s₀)
      (policy.maxAttempts - 1) k) :
    (InStep (net.reply policy.cooldownMs (probeAt h start) s₀ k) →
      (net.provision chain urls policy).runFrom s =
        (.ok (around h start k), net.ended policy.cooldownMs (probeAt h start) s₀ k)) ∧
    (¬ InStep (net.reply policy.cooldownMs (probeAt h start) s₀ k) →
      (net.provision chain urls policy).runFrom s =
        (.error (.noHealthyEndpoint chain (max policy.maxAttempts 1)),
          net.ended policy.cooldownMs (probeAt h start) s₀ k)) := by
  have hempty : ¬ urls.isEmpty = true := by simpa using h
  obtain ⟨hfound, hnone⟩ := net.probe_of_stopsAt h hk
  simp only [provision, Session.runFrom_of, if_neg hempty, hchoose]
  refine ⟨fun hstep => ?_, fun hstep => ?_⟩
  · rw [hfound hstep]
  · rw [hnone hstep]

/-- What is sent to find an endpoint are the probes that the search looks at. -/
theorem sent_provision_of_stopsAt (chain : ℕ) {policy : ProbePolicy} {s s₀ : σ}
    (hchoose : net.choose urls.length s = (start, s₀))
    (hk : StopsAt InStep (net.reply policy.cooldownMs (probeAt h start) s₀)
      (policy.maxAttempts - 1) k) :
    ((net.recorded.provision chain urls policy).runFrom (s, [])).2.2 =
      net.roundTrips policy.cooldownMs (probeAt h start) s₀ (k + 1) := by
  have hchoose' : net.recorded.choose urls.length (s, []) = (start, s₀, []) := by
    simp only [recorded, hchoose]
  have hk' : StopsAt InStep (net.recorded.reply policy.cooldownMs (probeAt h start) (s₀, []))
      (policy.maxAttempts - 1) k := by rwa [reply_recorded]
  obtain ⟨hfound, hnone⟩ := net.recorded.provision_of_stopsAt h chain hchoose' hk'
  rw [reply_recorded, ended_recorded, List.nil_append] at hfound hnone
  by_cases hstep : InStep (net.reply policy.cooldownMs (probeAt h start) s₀ k)
  · exact congrArg (·.2.2) (hfound hstep)
  · exact congrArg (·.2.2) (hnone hstep)

/-- **Going around the endpoints.** From the one that is chosen on, wherever it
is, the endpoints are probed one after the other: as many as there are up to
the first that says it is in step, and no more than allowed. That one is taken;
and none is, exactly if none of those allowed is in step, after as many probes
as allowed. So an endpoint that is in step whenever it is probed is enough,
where there are no fewer probes than endpoints. -/
theorem provision_rotates (chain : ℕ) (policy : ProbePolicy) (s : σ) :
    let start := (net.choose urls.length s).1
    let s₀ := (net.choose urls.length s).2
    let answers := net.reply policy.cooldownMs (probeAt h start) s₀
    let allowed := max policy.maxAttempts 1
    let outcome := ((net.provision chain urls policy).runFrom s).1
    let sent := ((net.recorded.provision chain urls policy).runFrom (s, [])).2.2
    (∃ n, sent = net.roundTrips policy.cooldownMs (probeAt h start) s₀ n ∧
      (n : ℕ∞) = min (placeOfFirst InStep answers) allowed) ∧
    (∀ k < allowed, InStep (answers k) → (∀ i < k, ¬ InStep (answers i)) →
      outcome = .ok (around h start k) ∧ sent.length = k + 1) ∧
    (outcome = .error (.noHealthyEndpoint chain allowed) ↔ ∀ i < allowed, ¬ InStep (answers i)) ∧
    (outcome = .error (.noHealthyEndpoint chain allowed) → sent.length = allowed) ∧
    (urls.length ≤ allowed →
      (∃ url ∈ urls, ∀ i, around h start i = url → InStep (answers i)) →
      ∃ url ∈ urls, outcome = .ok url) := by
  intro start s₀ answers allowed outcome sent
  have hallowed : policy.maxAttempts - 1 + 1 = allowed := by omega
  obtain ⟨k, hk⟩ := exists_stopsAt InStep answers (policy.maxAttempts - 1)
  obtain ⟨hfound, hnone⟩ := net.provision_of_stopsAt h chain (s := s) rfl hk
  have hsent : sent = net.roundTrips policy.cooldownMs (probeAt h start) s₀ (k + 1) :=
    net.sent_provision_of_stopsAt h chain rfl hk
  have hfails : outcome = .error (.noHealthyEndpoint chain allowed) ↔ ¬ InStep (answers k) := by
    by_cases hstep : InStep (answers k)
    · simp [outcome, hfound hstep, hstep]
    · simp [outcome, hnone hstep, hstep, allowed]
  have hall : ¬ InStep (answers k) ↔ ∀ i < allowed, ¬ InStep (answers i) := by
    rw [hk.not_iff, ← hallowed]
    simp only [Nat.lt_succ_iff]
  refine ⟨⟨k + 1, hsent, hallowed ▸ hk.succ_eq_min⟩, fun n hn hstep hbefore => ?_,
    hfails.trans hall, fun herror => ?_, fun hle hsome => ?_⟩
  · obtain rfl := hk.eq_of_first (by omega) hstep hbefore
    exact ⟨congrArg (·.1) (hfound hstep), by rw [hsent, length_roundTrips]⟩
  · have hlast : k = policy.maxAttempts - 1 := hk.stop.resolve_left (hfails.mp herror)
    rw [hsent, length_roundTrips, hlast, hallowed]
  · obtain ⟨url, hurl, halways⟩ := hsome
    obtain ⟨i, hi, hplace⟩ := exists_around_eq h hurl start
    have hstep : InStep (answers k) :=
      not_not.mp fun hnot => hall.mp hnot i (by omega) (halways i hplace)
    exact ⟨_, around_mem h start k, congrArg (·.1) (hfound hstep)⟩

/-- A node of whose answers the first so many are errors, and the others say
that it is in step. -/
def waking (errors : ℕ) : Link ℕ where
  request _ _ _ n :=
    (if n < errors then .error (.transient .connectionRefused "down") else .ok (.bool false), n + 1)
  sleep _ n := n
  choose _ n := (1, n)

/-- Two endpoints that are both down twice: from the second of them on, the
third probe finds it up. -/
theorem provision_rotates_twice :
    ["http://a", "http://b"] ≠ [] ∧
      (((waking 2).provision 97 ["http://a", "http://b"] ⟨4, 500⟩).runFrom 0).1 = .ok "http://b" ∧
      (((waking 2).recorded.provision 97 ["http://a", "http://b"] ⟨4, 500⟩).runFrom
        (0, [])).2.2.length = 3 :=
  have h : ["http://a", "http://b"] ≠ [] := by decide
  have hfirst : ∀ i < 2, ¬ InStep ((waking 2).reply 500 (probeAt h 1) 0 i) := by
    intro i hi
    obtain rfl | rfl : i = 0 ∨ i = 1 := by omega
    all_goals simp [InStep, reply, ask, after, waking]
  ⟨h, ((waking 2).provision_rotates h 97 ⟨4, 500⟩ 0).2.1 2 (by decide) (.inl rfl) hfirst⟩

end Link

end ChainLedger
