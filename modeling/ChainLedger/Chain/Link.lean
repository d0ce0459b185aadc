import ChainLedger.Chain.Settings
import ChainLedger.Chain.Error

/-!
# Links to the nodes

A `Link σ` is what there is to work with outside this library: requests that
a node answers, waiting, and a choice among endpoints, each of which may
change a state `σ`. `Link.retry` tries a request again while it fails in
passing; the last try decides.
-/

namespace ChainLedger

/-- Requests, waiting and choice over a state. -/
structure Link (σ : Type) where
  /-- Sends a request with a method and its arguments to an endpoint. -/
  request : String → String → Json → σ → Except ChainError Json × σ
  /-- Waits for some milliseconds. -/
  sleep : Nat → σ → σ
  /-- Chooses among so many endpoints the one to start with. -/
  choose : Nat → σ → Nat × σ

/-- What ends with an answer or an error of a chain, and may change a state. -/
abbrev Session (σ α : Type) := ExceptT ChainError (StateM σ) α

namespace Session

variable {σ α β : Type}

/-- A session from what it answers and what it leaves behind. -/
def of (f : σ → Except ChainError α × σ) : Session σ α := f

/-- What a session answers and what it leaves behind. -/
def runFrom (x : Session σ α) (s : σ) : Except ChainError α × σ := ExceptT.run x s

/-- An answer that is known already. -/
def ofExcept (x : Except ChainError α) : Session σ α := of fun s => (x, s)

/-! ### Sessions, step by step -/

@[simp] theorem runFrom_of (f : σ → Except ChainError α × σ) (s : σ) : (of f).runFrom s = f s := rfl

@[simp] theorem runFrom_pure (a : α) (s : σ) :
    (pure a : Session σ α).runFrom s = (.ok a, s) := rfl

@[simp] theorem runFrom_get (s : σ) : (get : Session σ σ).runFrom s = (.ok s, s) := rfl

theorem runFrom_bind (x : Session σ α) (f : α → Session σ β) (s : σ) :
    (x >>= f).runFrom s = match x.runFrom s with
      | (.ok a, s) => (f a).runFrom s
      | (.error e, s) => (.error e, s) := by
  simp only [runFrom, ExceptT.run, Bind.bind, ExceptT.bind, ExceptT.mk, StateT.bind]
  rcases x s with ⟨_ | a, s'⟩ <;> rfl

theorem runFrom_bind_of_ok {x : Session σ α} {f : α → Session σ β} {a : α} {s s' : σ}
    (h : x.runFrom s = (.ok a, s')) : (x >>= f).runFrom s = (f a).runFrom s' := by
  rw [runFrom_bind, h]

theorem runFrom_bind_of_error {x : Session σ α} {f : α → Session σ β} {e : ChainError} {s s' : σ}
    (h : x.runFrom s = (.error e, s')) : (x >>= f).runFrom s = (.error e, s') := by
  rw [runFrom_bind, h]

end Session

namespace Link

variable {σ α : Type} (net : Link σ)

/-- Tries `op`, and up to `more` times again while it fails in passing. -/
def tries (delay : Nat) (op : Session σ α) : Nat → Session σ α
  | 0 => op
  | more + 1 => .of fun s =>
    match op.runFrom s with
    | (.error e, s) =>
      if e.isTransient then (tries delay op more).runFrom (net.sleep delay s) else (.error e, s)
    | answered => answered

/-- **Tries as often as a policy allows**, and at least once. -/
def retry (policy : RetryPolicy) (op : Session σ α) : Session σ α :=
  net.tries policy.delayMs op (policy.maxAttempts - 1)

/-- One request to an endpoint. -/
def send (url method : String) (params : Json) : Session σ Json :=
  .of (net.request url method params)

end Link

end ChainLedger
