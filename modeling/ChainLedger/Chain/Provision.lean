import ChainLedger.Chain.Link

/-!
# Finding a synced endpoint

The endpoints of a chain are probed one after the other from a chosen one
on, around and around, until one answers that it is in step with the chain.
A probe that fails counts like one that says the node is behind.
-/

namespace ChainLedger.Link

variable {σ : Type} (net : Link σ)

/-- What the answer of a probe says: the node is still behind. -/
def saysSyncing : Json → Bool
  | .bool b => b
  | .null => false
  | _ => true

/-- An endpoint is in step with its chain. -/
def isSynced (url : String) (s : σ) : Bool × σ :=
  match net.request url "eth_syncing" (.arr []) s with
  | (.ok v, s) => (!saysSyncing v, s)
  | (.error _, s) => (false, s)

/-- Probes up to `more + 1` endpoints, from the one at `index` on. -/
def probe (urls : List String) (cooldown : Nat) : Nat → Nat → σ → Option String × σ
  | more, index, s =>
    match urls[index % urls.length]? with
    | none => (none, s)
    | some url =>
      match net.isSynced url s with
      | (true, s) => (some url, s)
      | (false, s) =>
        match more with
        | 0 => (none, s)
        | more + 1 => probe urls cooldown more (index + 1) (net.sleep cooldown s)

/-- **A synced endpoint of a chain**, after at most as many probes as the
policy allows and at least one. -/
def provision (chain : Nat) (urls : List String) (policy : ProbePolicy) : Session σ String :=
  .of fun s =>
    if urls.isEmpty then (.error (.settings (.noUrls chain)), s)
    else
      let (start, s) := net.choose urls.length s
      match net.probe urls policy.cooldownMs (policy.maxAttempts - 1) start s with
      | (some url, s) => (.ok url, s)
      | (none, s) => (.error (.noHealthyEndpoint chain (max policy.maxAttempts 1)), s)

end ChainLedger.Link
