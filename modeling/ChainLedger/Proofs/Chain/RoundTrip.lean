import ChainLedger.Chain.Query
import ChainLedger.Rehearsal.Script
import Mathlib.Data.ENat.Lattice

/-!
# Round trips to nodes

A link can write down what it is asked to send and what is answered
(`Link.recorded`). Requests that are sent one after the other, with a wait
after each, have a row of replies (`Link.reply`), whatever the nodes do in the
meantime. To try again and to go around endpoints are both a search along such
a row: it stops at the first reply of a kind, or when no more requests are
allowed (`StopsAt`), so the number of requests is the smaller of two
(`StopsAt.succ_eq_min`). What trying again comes to is read off the place where
the search stops (`Link.runFrom_tries`).
-/

namespace ChainLedger

/-- A request to a node, and what was answered. -/
structure RoundTrip where
  request : Request
  answer : Except ChainError Json

/-! ## Searching along a row -/

section Search

variable {α : Type} {p : α → Prop} {row : ℕ → α} {more k : ℕ}

/-- **A search along a row stops** at the first place that has what is sought,
or at the last place that it may look at. -/
structure StopsAt (p : α → Prop) (row : ℕ → α) (more k : ℕ) : Prop where
  le : k ≤ more
  before : ∀ i < k, ¬ p (row i)
  stop : p (row k) ∨ k = more

/-- Which of a row is the first to have what is sought, counted from one, and
`⊤` if none has it. -/
noncomputable def placeOfFirst (p : α → Prop) (row : ℕ → α) : ℕ∞ :=
  ⨅ i : ℕ, ⨅ _ : p (row i), ((i + 1 : ℕ) : ℕ∞)

theorem exists_stopsAt (p : α → Prop) (row : ℕ → α) (more : ℕ) : ∃ k, StopsAt p row more k := by
  induction more with
  | zero => exact ⟨0, le_rfl, nofun, .inr rfl⟩
  | succ more ih =>
    obtain ⟨k, hle, hbefore, hstop⟩ := ih
    by_cases hk : p (row k)
    · exact ⟨k, by omega, hbefore, .inl hk⟩
    · obtain rfl := hstop.resolve_left hk
      refine ⟨k + 1, le_rfl, fun i hi => ?_, .inr rfl⟩
      rcases Nat.lt_succ_iff_lt_or_eq.mp hi with hlt | rfl
      · exact hbefore i hlt
      · exact hk

namespace StopsAt

/-- **As many are looked at** as there are up to the first that has what is
sought, but no more than allowed. -/
theorem succ_eq_min (h : StopsAt p row more k) :
    ((k + 1 : ℕ) : ℕ∞) = min (placeOfFirst p row) ((more + 1 : ℕ) : ℕ∞) := by
  apply le_antisymm
  · refine le_min (le_iInf₂ fun i hi => ?_) (by exact_mod_cast Nat.succ_le_succ h.le)
    have hki : k ≤ i := Nat.le_of_not_lt fun hlt => h.before i hlt hi
    exact_mod_cast Nat.succ_le_succ hki
  · rcases h.stop with hk | rfl
    · exact (min_le_left _ _).trans (iInf₂_le k hk)
    · exact min_le_right _ _

/-- A search that went on is a search along the rest. -/
theorem tail (h : StopsAt p row (more + 1) (k + 1)) : StopsAt p (fun i => row (i + 1)) more k where
  le := Nat.le_of_succ_le_succ h.le
  before i hi := h.before (i + 1) (Nat.succ_lt_succ hi)
  stop := h.stop.imp id Nat.succ.inj

/-- Nothing is found if and only if none of those allowed has what is sought. -/
theorem not_iff (h : StopsAt p row more k) : ¬ p (row k) ↔ ∀ i ≤ more, ¬ p (row i) := by
  refine ⟨fun hk i hi => ?_, fun hall => hall k h.le⟩
  obtain rfl := h.stop.resolve_left hk
  rcases hi.lt_or_eq with hlt | rfl
  · exact h.before i hlt
  · exact hk

/-- The first that has what is sought is where the search stops. -/
theorem eq_of_first (h : StopsAt p row more k) {n : ℕ} (hn : n ≤ more) (hp : p (row n))
    (hbefore : ∀ i < n, ¬ p (row i)) : k = n := by
  apply le_antisymm
  · exact Nat.le_of_not_lt fun hlt => h.before n hlt hp
  · refine Nat.le_of_not_lt fun hlt => ?_
    exact hbefore k hlt (h.stop.resolve_right (by omega))

end StopsAt

end Search

namespace Link

variable {σ α : Type} (net : Link σ)

/-! ## Rows of requests -/

/-- Sends a request. -/
def ask (q : Request) (s : σ) : Except ChainError Json × σ := net.request q.url q.method q.params s

/-- The state after so many of a row of requests, with a wait after each. -/
def after (wait : ℕ) (asks : ℕ → Request) (s : σ) : ℕ → σ
  | 0 => s
  | n + 1 => net.sleep wait (net.ask (asks n) (after wait asks s n)).2

/-- The reply to a request of a row. -/
def reply (wait : ℕ) (asks : ℕ → Request) (s : σ) (n : ℕ) : Except ChainError Json :=
  (net.ask (asks n) (net.after wait asks s n)).1

/-- The state that a request of a row leaves, if nothing is sent after it. -/
def ended (wait : ℕ) (asks : ℕ → Request) (s : σ) (n : ℕ) : σ :=
  (net.ask (asks n) (net.after wait asks s n)).2

/-- The first so many round trips of a row. -/
def roundTrips (wait : ℕ) (asks : ℕ → Request) (s : σ) (n : ℕ) : List RoundTrip :=
  (List.range n).map fun i => ⟨asks i, net.reply wait asks s i⟩

variable {wait : ℕ} {asks : ℕ → Request} {s : σ}

@[simp] theorem length_roundTrips (n : ℕ) : (net.roundTrips wait asks s n).length = n := by
  simp [roundTrips]

theorem roundTrips_succ (n : ℕ) : net.roundTrips wait asks s (n + 1) =
    net.roundTrips wait asks s n ++ [⟨asks n, net.reply wait asks s n⟩] := by
  simp [roundTrips, List.range_succ]

/-- After the first request a row goes on with the others. -/
theorem after_succ (n : ℕ) : net.after wait asks s (n + 1) =
    net.after wait (fun i => asks (i + 1)) (net.sleep wait (net.ask (asks 0) s).2) n := by
  induction n with
  | zero => rfl
  | succ n ih => rw [after, ih]; rfl

theorem reply_succ (n : ℕ) : net.reply wait asks s (n + 1) =
    net.reply wait (fun i => asks (i + 1)) (net.sleep wait (net.ask (asks 0) s).2) n := by
  rw [reply, after_succ]; rfl

theorem ended_succ (n : ℕ) : net.ended wait asks s (n + 1) =
    net.ended wait (fun i => asks (i + 1)) (net.sleep wait (net.ask (asks 0) s).2) n := by
  rw [ended, after_succ]; rfl

/-! ## Recording -/

/-- **A link that writes its round trips down**, the latest last. -/
def recorded : Link (σ × List RoundTrip) where
  request url method params s :=
    let out := net.request url method params s.1
    (out.1, out.2, s.2 ++ [⟨⟨url, method, params⟩, out.1⟩])
  sleep ms s := (net.sleep ms s.1, s.2)
  choose n s := ((net.choose n s.1).1, (net.choose n s.1).2, s.2)

variable {done : List RoundTrip}

theorem after_recorded (n : ℕ) : net.recorded.after wait asks (s, done) n =
    (net.after wait asks s n, done ++ net.roundTrips wait asks s n) := by
  induction n with
  | zero => simp [after, roundTrips]
  | succ n ih => rw [after, ih, roundTrips_succ, ← List.append_assoc]; rfl

/-- A link replies the same whether it records or not. -/
@[simp] theorem reply_recorded :
    net.recorded.reply wait asks (s, done) = net.reply wait asks s := by
  funext n
  rw [reply, after_recorded]; rfl

theorem ended_recorded (n : ℕ) : net.recorded.ended wait asks (s, done) n =
    (net.ended wait asks s n, done ++ net.roundTrips wait asks s (n + 1)) := by
  rw [ended, after_recorded, roundTrips_succ, ← List.append_assoc]; rfl

end Link

/-! ## Trying again -/

/-- **An answer is a failure in passing.** -/
def FailsInPassing {α : Type} : Except ChainError α → Prop
  | .ok _ => False
  | .error e => e.isTransient = true

namespace Link

variable {σ α : Type} (net : Link σ) {q : Request} {op : Session σ α}
  {read : Except ChainError Json → Except ChainError α}

/-- **What is tried again** ends with the first answer that is no failure in
passing, or with the last that was allowed. -/
theorem runFrom_tries (hop : ∀ s, op.runFrom s = (read (net.ask q s).1, (net.ask q s).2))
    (hread : ∀ answer, FailsInPassing (read answer) ↔ FailsInPassing answer) {delay more k : ℕ}
    {s : σ} (hk : StopsAt (¬ FailsInPassing ·) (net.reply delay (fun _ => q) s) more k) :
    (net.tries delay op more).runFrom s =
      (read (net.reply delay (fun _ => q) s k), net.ended delay (fun _ => q) s k) := by
  induction more generalizing s k with
  | zero =>
    obtain rfl := Nat.le_zero.mp hk.le
    exact hop s
  | succ more ih =>
    simp only [tries, Session.runFrom_of, hop]
    cases k with
    | zero =>
      -- The first answer is final.
      have hfinal : ¬ FailsInPassing (read (net.ask q s).1) :=
        fun hfails => hk.stop.resolve_right (by omega) ((hread _).mp hfails)
      simp only [reply, ended, after]
      cases hout : read (net.ask q s).1 with
      | ok a => rfl
      | error e =>
        rw [hout] at hfinal
        exact if_neg hfinal
    | succ k =>
      have hfails : FailsInPassing (read (net.ask q s).1) :=
        (hread _).mpr (not_not.mp (hk.before 0 (Nat.succ_pos k)))
      rw [reply_succ, ended_succ]
      have hrest := hk.tail
      simp only [reply_succ] at hrest
      cases hout : read (net.ask q s).1 with
      | ok a =>
        rw [hout] at hfails
        exact hfails.elim
      | error e =>
        rw [hout] at hfails
        exact (if_pos hfails).trans (ih hrest)

end Link

namespace Chains

variable {σ : Type} (g : Chains σ)

/-- Chains whose link writes its round trips down. -/
def recorded : Chains (σ × List RoundTrip) where
  settings := g.settings
  net := g.net.recorded
  registry s := g.registry s.1
  setRegistry r s := (g.setRegistry r s.1, s.2)

end Chains

end ChainLedger
