import ChainLedger.Proofs.Chain.Provision

/-!
# What a registry keeps

A registry stands beside nodes that it does not see into (`Chains.beside`), and
is visited by one call after another; each finds the nodes in a state of its
own, so that their health may change in any way in between (`Visit`). What a
visit comes to depends on nothing in the registry but the connection of its
chain, and what it writes there is a connection of that chain
(`Visit.exists_upshot`). From this one inversion follow the invariant of the
registry (`Registry.Sound`), that connections last (`Registry.keeps_upshot`),
and that visits for one chain are nothing to another (`Visit.agrees_visited`).
Main statement: `Visit.cached`.
-/

namespace ChainLedger

/-! ## A registry beside nodes -/

namespace Link

variable {ρ τ : Type} (net : Link τ)

/-- A link beside something that it leaves alone. -/
def beside : Link (ρ × τ) where
  request url method params s :=
    let out := net.request url method params s.2
    (out.1, s.1, out.2)
  sleep ms s := (s.1, net.sleep ms s.2)
  choose n s := ((net.choose n s.2).1, s.1, (net.choose n s.2).2)

variable {wait : ℕ} {asks : ℕ → Request} {r : ρ} {s : τ}

theorem after_beside (n : ℕ) :
    (net.beside (ρ := ρ)).after wait asks (r, s) n = (r, net.after wait asks s n) := by
  induction n with
  | zero => rfl
  | succ n ih => rw [after, ih]; rfl

theorem reply_beside :
    (net.beside (ρ := ρ)).reply wait asks (r, s) = net.reply wait asks s := by
  funext n
  rw [reply, after_beside]; rfl

theorem ended_beside (n : ℕ) :
    (net.beside (ρ := ρ)).ended wait asks (r, s) n = (r, net.ended wait asks s n) := by
  rw [ended, after_beside]; rfl

/-- Endpoints are looked for in the same way, whatever is beside. -/
theorem provision_beside (chain : ℕ) (urls : List String) (policy : ProbePolicy) :
    ((net.beside (ρ := ρ)).provision chain urls policy).runFrom (r, s) =
      (((net.provision chain urls policy).runFrom s).1, r,
        ((net.provision chain urls policy).runFrom s).2) := by
  by_cases h : urls = []
  · subst h
    rfl
  · obtain ⟨k, hk⟩ := exists_stopsAt InStep
      (net.reply policy.cooldownMs (probeAt h (net.choose urls.length s).1)
        (net.choose urls.length s).2) (policy.maxAttempts - 1)
    obtain ⟨hfound, hnone⟩ := net.provision_of_stopsAt h chain (s := s) rfl hk
    have hk' : StopsAt InStep ((net.beside (ρ := ρ)).reply policy.cooldownMs
        (probeAt h (net.choose urls.length s).1) (r, (net.choose urls.length s).2))
        (policy.maxAttempts - 1) k := by rwa [reply_beside]
    obtain ⟨hfound', hnone'⟩ :=
      (net.beside (ρ := ρ)).provision_of_stopsAt h chain (s := (r, s)) rfl hk'
    rw [reply_beside, ended_beside] at hfound' hnone'
    by_cases hstep : InStep (net.reply policy.cooldownMs
        (probeAt h (net.choose urls.length s).1) (net.choose urls.length s).2 k)
    · rw [hfound hstep, hfound' hstep]
    · rw [hnone hstep, hnone' hstep]

end Link

/-- **Chains with a registry beside the nodes.** -/
def Chains.beside {τ : Type} (settings : ChainSettings) (net : Link τ) : Chains (Registry × τ) where
  settings := settings
  net := net.beside
  registry := Prod.fst
  setRegistry r s := (r, s.2)

/-! ## Connections of a registry -/

namespace Registry

variable {r : Registry} {c : Connection} {chain : ℕ}

theorem connection?_set_self : (r.set c).connection? c.chain = some c := by
  simp [connection?, set]

theorem connection?_set_of_ne (h : c.chain ≠ chain) :
    (r.set c).connection? chain = r.connection? chain := by
  simp only [connection?, set, List.find?_cons_of_neg, h, decide_false, Bool.false_eq_true,
    not_false_eq_true, List.find?_filter]
  congr 2
  funext x
  by_cases hx : x.1 = chain <;> simp [hx, Ne.symm h]

/-- A registry with connections set, one after the other. -/
def written (r : Registry) (cs : List Connection) : Registry := cs.foldl set r

theorem written_append (cs ds : List Connection) :
    (r.written cs).written ds = r.written (cs ++ ds) := List.foldl_append.symm

theorem connection?_written_of_ne {cs : List Connection} (h : ∀ c ∈ cs, c.chain ≠ chain) :
    (r.written cs).connection? chain = r.connection? chain := by
  induction cs generalizing r with
  | nil => rfl
  | cons c cs ih =>
    obtain ⟨hc, hcs⟩ := List.forall_mem_cons.mp h
    exact (ih hcs).trans (connection?_set_of_ne hc)

/-- The connection that was set last is the one that is found. -/
theorem connection?_written_self {cs : List Connection} (h : ∀ c ∈ cs, c.chain = chain) :
    (r.written cs).connection? chain = cs.getLast?.or (r.connection? chain) := by
  induction cs generalizing r with
  | nil => rfl
  | cons c cs ih =>
    obtain ⟨hc, hcs⟩ := List.forall_mem_cons.mp h
    subst hc
    have hrest := ih (r := r.set c) hcs
    rw [connection?_set_self] at hrest
    refine hrest.trans ?_
    cases cs with
    | nil => rfl
    | cons d ds => simp [List.getLast?_cons]

end Registry

/-! ## Visits -/

/-- A call on a registry: for a chain, or for the contract of a kind on it. -/
inductive Errand
  | connect (chain : ℕ)
  | bind (chain : ℕ) (kind : ContractKind)

/-- What a call on a registry hands out. -/
inductive Grant
  | chain (c : Connection)
  | contract (k : Contract)

/-- The endpoint that is used from then on. -/
def Grant.url : Grant → String
  | .chain c => c.url
  | .contract k => k.url

namespace Errand

/-- The chain that a call is for. -/
def chain : Errand → ℕ
  | .connect chain => chain
  | .bind chain _ => chain

/-- A call, made. -/
def ask {σ : Type} (g : Chains σ) : Errand → Session σ Grant
  | .connect chain => do return .chain (← g.connection chain)
  | .bind chain kind => do return .contract (← g.contract chain kind)

end Errand

/-- **A visit to a registry**: a call, and the state in which it finds the nodes. -/
structure Visit (τ : Type) where
  errand : Errand
  nodes : τ

/-- What comes of a visit: what is answered, what was sent to the nodes, and the
registry that is left. -/
structure Upshot where
  answer : Except ChainError Grant
  sent : List RoundTrip
  registry : Registry

section Visits

variable {τ : Type} (settings : ChainSettings) (net : Link τ)

/-- The chain that a visit is for. -/
def Visit.chain (v : Visit τ) : ℕ := v.errand.chain

/-- **What comes of a visit** to a registry. -/
def Visit.upshot (r : Registry) (v : Visit τ) : Upshot :=
  let out := (v.errand.ask (.beside settings net.recorded)).runFrom (r, v.nodes, [])
  ⟨out.1, out.2.2.2, out.2.1⟩

/-- The registry that one visit after another leaves. -/
def Registry.visited (r : Registry) (vs : List (Visit τ)) : Registry :=
  vs.foldl (fun r v => (v.upshot settings net r).registry) r

/-- The search for an endpoint of a chain, as it goes in a state of the nodes. -/
def provisioning (chain : ℕ) (e : Endpoint) (nodes : τ) :
    Except ChainError String × τ × List RoundTrip :=
  (net.recorded.provision chain e.urls settings.probing).runFrom (nodes, [])

/-! ### How a chain is connected, and a contract bound -/

/-- **How a connection is had**, by the one that is held: the answer, what is
sent, and the connections that are set. -/
inductive Connects (chain : ℕ) (held : Option Connection) (nodes : τ) :
    Except ChainError Connection → List RoundTrip → List Connection → Prop
  | unsupported (hchain : ChainFamily.ofChain? chain = none) :
      Connects chain held nodes (.error (.unsupported chain)) [] []
  | held {c : Connection} (hchain : ChainFamily.ofChain? chain ≠ none) (hheld : held = some c) :
      Connects chain held nodes (.ok c) [] []
  | unset (hchain : ChainFamily.ofChain? chain ≠ none) (hheld : held = none)
      (hendpoint : settings.endpoint? chain = none) :
      Connects chain held nodes (.error (.settings (.noEndpoint chain))) [] []
  | failed {e : Endpoint} {err : ChainError} {nodes' : τ} {sent : List RoundTrip}
      (hchain : ChainFamily.ofChain? chain ≠ none) (hheld : held = none)
      (hendpoint : settings.endpoint? chain = some e)
      (hsearch : provisioning settings net chain e nodes = (.error err, nodes', sent)) :
      Connects chain held nodes (.error err) sent []
  | made {e : Endpoint} {url : String} {nodes' : τ} {sent : List RoundTrip}
      (hchain : ChainFamily.ofChain? chain ≠ none) (hheld : held = none)
      (hendpoint : settings.endpoint? chain = some e)
      (hsearch : provisioning settings net chain e nodes = (.ok url, nodes', sent)) :
      Connects chain held nodes (.ok ⟨chain, url, e, []⟩) sent [⟨chain, url, e, []⟩]

/-- **What a connection hands out** to a call: the answer, and the connections
that are set. -/
inductive Grants (c : Connection) : Errand → Except ChainError Grant → List Connection → Prop
  | connect {chain : ℕ} : Grants c (.connect chain) (.ok (.chain c)) []
  | bound {chain : ℕ} {kind : ContractKind} {k : Contract} (hbound : c.bound? kind = some k) :
      Grants c (.bind chain kind) (.ok (.contract k)) []
  | missing {chain : ℕ} {kind : ContractKind} (hbound : c.bound? kind = none)
      (hnone : c.endpoint.contract? kind = none) :
      Grants c (.bind chain kind) (.error (.settings (.noContract kind chain))) []
  | binds {chain : ℕ} {kind : ContractKind} {a : Address} (hbound : c.bound? kind = none)
      (haddress : c.endpoint.contract? kind = some a) :
      Grants c (.bind chain kind) (.ok (.contract (c.contractAt kind a)))
        [{ c with bound := (kind, c.contractAt kind a) :: c.bound }]

/-- **What comes of a visit**, by the connection of its chain that is held. -/
inductive Settles (held : Option Connection) (v : Visit τ) :
    Except ChainError Grant → List RoundTrip → List Connection → Prop
  | refused {err : ChainError} {sent : List RoundTrip} {cs : List Connection}
      (hconnects : Connects settings net v.chain held v.nodes (.error err) sent cs) :
      Settles held v (.error err) sent cs
  | granted {c : Connection} {sent : List RoundTrip} {cs ds : List Connection}
      {answer : Except ChainError Grant}
      (hconnects : Connects settings net v.chain held v.nodes (.ok c) sent cs)
      (hgrants : Grants c v.errand answer ds) :
      Settles held v answer sent (cs ++ ds)

/-- A chain that is connected is had without a request. -/
theorem runFrom_connection_held {chain : ℕ} {family : ChainFamily} {r : Registry} {c : Connection}
    {s : τ} (hchain : ChainFamily.ofChain? chain = some family)
    (hheld : r.connection? chain = some c) :
    ((Chains.beside settings net).connection chain).runFrom (r, s) = (.ok c, r, s) := by
  have hget : (Chains.beside settings net).registry (r, s) = r := rfl
  simp only [Chains.connection, hchain, Session.runFrom_bind, Session.runFrom_get, hget, hheld,
    Session.runFrom_pure]

/-- A chain that is served and not connected is connected now. -/
theorem runFrom_connection_open {chain : ℕ} {family : ChainFamily} {r : Registry} {s : τ}
    (hchain : ChainFamily.ofChain? chain = some family) (hopen : r.connection? chain = none) :
    ((Chains.beside settings net).connection chain).runFrom (r, s) =
      ((Chains.beside settings net).connect chain).runFrom (r, s) := by
  have hget : (Chains.beside settings net).registry (r, s) = r := rfl
  simp only [Chains.connection, hchain, Session.runFrom_bind, Session.runFrom_get, hget, hopen]

/-- To connect a chain is to find an endpoint and to keep it. -/
theorem runFrom_connect {chain : ℕ} {e : Endpoint} {r : Registry} {s : τ}
    (hendpoint : settings.endpoint? chain = some e) :
    ((Chains.beside settings net).connect chain).runFrom (r, s) =
      match (net.provision chain e.urls settings.probing).runFrom s with
      | (.ok url, s') => (.ok ⟨chain, url, e, []⟩, r.set ⟨chain, url, e, []⟩, s')
      | (.error err, s') => (.error err, r, s') := by
  have hsearch := net.provision_beside (r := r) (s := s) chain e.urls settings.probing
  have hconnect : ((Chains.beside settings net).connect chain).runFrom (r, s) =
      (do
        let url ← net.beside.provision chain e.urls settings.probing
        modify fun s : Registry × τ => (s.1.set ⟨chain, url, e, []⟩, s.2)
        return Connection.mk chain url e []).runFrom (r, s) := by
    simp only [Chains.connect, Chains.beside, hendpoint]
  rw [hconnect]
  rcases hout : (net.provision chain e.urls settings.probing).runFrom s with ⟨err | url, s'⟩
  · rw [hout] at hsearch
    exact Session.runFrom_bind_of_error hsearch
  · rw [hout] at hsearch
    exact Session.runFrom_bind_of_ok hsearch

/-- **How a chain is connected**, whatever else the registry holds. -/
theorem exists_connects (chain : ℕ) (held : Option Connection) (nodes : τ) :
    ∃ answer sent cs, Connects settings net chain held nodes answer sent cs ∧
      ∃ nodes', ∀ r : Registry, r.connection? chain = held →
        ((Chains.beside settings net.recorded).connection chain).runFrom (r, nodes, []) =
          (answer, r.written cs, nodes', sent) := by
  cases hchain : ChainFamily.ofChain? chain with
  | none =>
    refine ⟨_, _, _, .unsupported hchain, nodes, fun r _ => ?_⟩
    simp only [Chains.connection, hchain]
    rfl
  | some family =>
    have hserved : ChainFamily.ofChain? chain ≠ none := by simp [hchain]
    cases held with
    | some c =>
      exact ⟨_, _, _, .held hserved rfl, nodes,
        fun r hr => runFrom_connection_held settings net.recorded hchain hr⟩
    | none =>
      cases hendpoint : settings.endpoint? chain with
      | none =>
        refine ⟨_, _, _, .unset hserved rfl hendpoint, nodes, fun r hr => ?_⟩
        rw [runFrom_connection_open settings net.recorded hchain hr, Chains.connect]
        simp only [Chains.beside, hendpoint]
        rfl
      | some e =>
        have hrun : ∀ r : Registry, r.connection? chain = none → _ := fun r hr =>
          (runFrom_connection_open settings net.recorded (s := (nodes, [])) hchain hr).trans
            (runFrom_connect settings net.recorded hendpoint)
        rcases hsearch : provisioning settings net chain e nodes with ⟨err | url, nodes', sent⟩
        · refine ⟨_, _, _, .failed hserved rfl hendpoint hsearch, nodes', fun r hr => ?_⟩
          rw [hrun r hr, ← provisioning, hsearch]
          rfl
        · refine ⟨_, _, _, .made hserved rfl hendpoint hsearch, nodes', fun r hr => ?_⟩
          rw [hrun r hr, ← provisioning, hsearch]
          rfl

/-- A contract is handed out by the connection of its chain. -/
theorem runFrom_contract {chain : ℕ} (kind : ContractKind) {c : Connection} {r r' : Registry}
    {s s' : τ}
    (h : ((Chains.beside settings net).connection chain).runFrom (r, s) = (.ok c, r', s')) :
    ((Chains.beside settings net).contract chain kind).runFrom (r, s) =
      match c.bound? kind, c.endpoint.contract? kind with
      | some k, _ => (.ok k, r', s')
      | none, none => (.error (.settings (.noContract kind chain)), r', s')
      | none, some a => (.ok (c.contractAt kind a),
          r'.set { c with bound := (kind, c.contractAt kind a) :: c.bound }, s') := by
  rw [Chains.contract, Session.runFrom_bind_of_ok h]
  cases c.bound? kind with
  | some k => rfl
  | none => cases c.endpoint.contract? kind <;> rfl

/-- **What a connected chain hands out.** -/
theorem exists_grants (e : Errand) (c : Connection) :
    ∃ answer ds, Grants c e answer ds ∧ ∀ (r r' : Registry) (s s' : τ),
      ((Chains.beside settings net).connection e.chain).runFrom (r, s) = (.ok c, r', s') →
        (e.ask (.beside settings net)).runFrom (r, s) = (answer, r'.written ds, s') := by
  cases e with
  | connect chain =>
    exact ⟨_, _, .connect, fun r r' s s' h => Session.runFrom_bind_of_ok h⟩
  | bind chain kind =>
    cases hbound : c.bound? kind with
    | some k =>
      refine ⟨_, _, .bound hbound, fun r r' s s' h => ?_⟩
      have hcontract := runFrom_contract settings net kind h
      simp only [hbound] at hcontract
      exact Session.runFrom_bind_of_ok hcontract
    | none =>
      cases haddress : c.endpoint.contract? kind with
      | none =>
        refine ⟨_, _, .missing hbound haddress, fun r r' s s' h => ?_⟩
        have hcontract := runFrom_contract settings net kind h
        simp only [hbound, haddress] at hcontract
        exact Session.runFrom_bind_of_error hcontract
      | some a =>
        refine ⟨_, _, .binds hbound haddress, fun r r' s s' h => ?_⟩
        have hcontract := runFrom_contract settings net kind h
        simp only [hbound, haddress] at hcontract
        exact Session.runFrom_bind_of_ok hcontract

theorem runFrom_ask_of_error (e : Errand) {err : ChainError} {r r' : Registry} {s s' : τ}
    (h : ((Chains.beside settings net).connection e.chain).runFrom (r, s) = (.error err, r', s')) :
    (e.ask (.beside settings net)).runFrom (r, s) = (.error err, r', s') := by
  cases e with
  | connect chain => exact Session.runFrom_bind_of_error h
  | bind chain kind => exact Session.runFrom_bind_of_error (Session.runFrom_bind_of_error h)

/-- **What comes of a visit depends on one connection**, that of its chain. -/
theorem Visit.exists_upshot (v : Visit τ) (held : Option Connection) :
    ∃ answer sent cs, Settles settings net held v answer sent cs ∧
      ∀ r : Registry, r.connection? v.chain = held →
        v.upshot settings net r = ⟨answer, sent, r.written cs⟩ := by
  obtain ⟨outcome, sent, cs, hconnects, nodes', hrun⟩ :=
    exists_connects settings net v.chain held v.nodes
  cases outcome with
  | error err =>
    refine ⟨_, _, _, .refused hconnects, fun r hr => ?_⟩
    rw [upshot, runFrom_ask_of_error settings net.recorded v.errand (hrun r hr)]
  | ok c =>
    obtain ⟨answer, ds, hgrants, hask⟩ := exists_grants settings net.recorded v.errand c
    refine ⟨_, _, _, .granted hconnects hgrants, fun r hr => ?_⟩
    rw [upshot, hask _ _ _ _ (hrun r hr), Registry.written_append]

/-! ### The invariant of a registry -/

/-- **A connection is as the settings have it**: of a chain that is served, to
the endpoint of that chain, with the contracts of that endpoint. -/
structure Connection.Sound (c : Connection) : Prop where
  served : ChainFamily.ofChain? c.chain ≠ none
  endpoint : settings.endpoint? c.chain = some c.endpoint
  bound : ∀ kind k, c.bound? kind = some k →
    ∃ a, c.endpoint.contract? kind = some a ∧ k = c.contractAt kind a

/-- **A registry is as the settings have it**: each chain has a connection of
its own. -/
structure Registry.Sound (r : Registry) : Prop where
  chain_eq : ∀ chain c, r.connection? chain = some c → c.chain = chain
  sound : ∀ chain c, r.connection? chain = some c → c.Sound settings

/-- Two connections are the same up to the contracts that are bound. -/
structure Connection.Agrees (c d : Connection) : Prop where
  chain : d.chain = c.chain
  url : d.url = c.url
  endpoint : d.endpoint = c.endpoint

section Invariant

variable {settings net} {c : Connection}

theorem Registry.sound_empty : Registry.Sound settings {} := ⟨nofun, nofun⟩

theorem Registry.Sound.set {r : Registry} (hr : r.Sound settings) (hc : c.Sound settings) :
    (r.set c).Sound settings := by
  have hconnection : ∀ chain d, (r.set c).connection? chain = some d →
      d.chain = chain ∧ d.Sound settings := by
    intro chain d hd
    by_cases h : c.chain = chain
    · subst h
      obtain rfl := Option.some.inj (Registry.connection?_set_self.symm.trans hd)
      exact ⟨rfl, hc⟩
    · rw [Registry.connection?_set_of_ne h] at hd
      exact ⟨hr.chain_eq chain d hd, hr.sound chain d hd⟩
  exact ⟨fun chain d hd => (hconnection chain d hd).1, fun chain d hd => (hconnection chain d hd).2⟩

theorem Registry.Sound.written {r : Registry} (hr : r.Sound settings) {cs : List Connection}
    (hcs : ∀ c ∈ cs, c.Sound settings) : (r.written cs).Sound settings := by
  induction cs generalizing r with
  | nil => exact hr
  | cons c cs ih =>
    obtain ⟨hc, hcs⟩ := List.forall_mem_cons.mp hcs
    exact ih (hr.set hc) hcs

/-- A connection that is had is sound, and is the one that is set or held. -/
theorem Connects.sound {chain : ℕ} {held : Option Connection} {nodes : τ} {sent : List RoundTrip}
    {cs : List Connection} (h : Connects settings net chain held nodes (.ok c) sent cs)
    (hchain : ∀ c ∈ held, c.chain = chain) (hsound : ∀ c ∈ held, c.Sound settings) :
    c.chain = chain ∧ c.Sound settings ∧ cs.getLast?.or held = some c ∧ ∀ d ∈ cs, d = c := by
  cases h with
  | held hserved hheld =>
    exact ⟨hchain c hheld, hsound c hheld, hheld, nofun⟩
  | made hserved hheld hendpoint hsearch =>
    exact ⟨rfl, ⟨hserved, hendpoint, nofun⟩, rfl, by simp⟩

/-- Contracts that are bound leave a sound connection as it was otherwise. -/
theorem Grants.sound {e : Errand} {answer : Except ChainError Grant} {ds : List Connection}
    (h : Grants c e answer ds) (hc : c.Sound settings) :
    ∀ d ∈ ds, c.Agrees d ∧ d.Sound settings := by
  cases h with
  | connect => exact nofun
  | bound _ => exact nofun
  | missing _ _ => exact nofun
  | @binds chain kind a _ haddress =>
    rintro d hd
    obtain rfl := List.mem_singleton.mp hd
    refine ⟨⟨rfl, rfl, rfl⟩, hc.served, hc.endpoint, fun kind' k hk => ?_⟩
    -- The new contract comes first, the others are where they were.
    by_cases hkind : kind = kind'
    · subst hkind
      obtain rfl : c.contractAt kind a = k := by simpa [Connection.bound?] using hk
      exact ⟨a, haddress, rfl⟩
    · exact hc.bound kind' k (by simpa [Connection.bound?, hkind] using hk)

/-- What is handed out goes to the endpoint of the connection. -/
theorem Grants.url_eq {e : Errand} {x : Grant} {ds : List Connection}
    (h : Grants c e (.ok x) ds) (hc : c.Sound settings) : x.url = c.url := by
  cases h with
  | connect => rfl
  | bound hbound =>
    obtain ⟨a, -, rfl⟩ := hc.bound _ _ hbound
    rfl
  | binds _ _ => rfl

/-- A contract that the settings name is handed out at its address. -/
theorem Grants.eq_contractAt {chain : ℕ} {kind : ContractKind} {a : Address}
    {answer : Except ChainError Grant} {ds : List Connection}
    (h : Grants c (.bind chain kind) answer ds) (hc : c.Sound settings)
    (ha : c.endpoint.contract? kind = some a) : answer = .ok (.contract (c.contractAt kind a)) := by
  cases h with
  | bound hbound =>
    obtain ⟨a', ha', rfl⟩ := hc.bound _ _ hbound
    obtain rfl := Option.some.inj (ha'.symm.trans ha)
    rfl
  | missing _ hnone => simp [hnone] at ha
  | binds _ ha' =>
    obtain rfl := Option.some.inj (ha'.symm.trans ha)
    rfl

/-- The connection of its chain that a visit leaves, where it has one, is the
one that it had, up to bound contracts. -/
theorem Grants.exists_left {e : Errand} {answer : Except ChainError Grant}
    {held : Option Connection} {cs ds : List Connection} (h : Grants c e answer ds)
    (hc : c.Sound settings) (hleft : cs.getLast?.or held = some c) :
    ∃ d, (cs ++ ds).getLast?.or held = some d ∧ c.Agrees d := by
  rw [List.getLast?_append, Option.or_assoc, hleft]
  cases hlast : ds.getLast? with
  | none => exact ⟨c, rfl, rfl, rfl, rfl⟩
  | some d => exact ⟨d, rfl, (h.sound hc d (List.mem_of_getLast? hlast)).1⟩

section Settled

variable {v : Visit τ} {held : Option Connection} {answer : Except ChainError Grant}
  {sent : List RoundTrip} {cs : List Connection}

/-- **A visit sets connections of its chain only**, as the settings have them. -/
theorem Settles.sound (h : Settles settings net held v answer sent cs)
    (hchain : ∀ c ∈ held, c.chain = v.chain) (hsound : ∀ c ∈ held, c.Sound settings) :
    ∀ d ∈ cs, d.chain = v.chain ∧ d.Sound settings := by
  cases h with
  | refused hconnects => cases hconnects <;> exact nofun
  | granted hconnects hgrants =>
    obtain ⟨hc, hs, -, hset⟩ := hconnects.sound hchain hsound
    intro d hd
    rcases List.mem_append.mp hd with hd | hd
    · obtain rfl := hset d hd
      exact ⟨hc, hs⟩
    · obtain ⟨hagrees, hd⟩ := hgrants.sound hs d hd
      exact ⟨hagrees.chain.trans hc, hd⟩

/-- **A chain that is connected stays so**: nothing is sent, and what is handed
out goes to the same endpoint. -/
theorem Settles.of_held (h : Settles settings net (some c) v answer sent cs)
    (hsound : c.Sound settings) (hchain : c.chain = v.chain) :
    sent = [] ∧ (∃ d, cs.getLast?.or (some c) = some d ∧ c.Agrees d) ∧
      (∀ x, answer = .ok x → x.url = c.url) ∧
      (∀ chain, v.errand = .connect chain → ∃ x, answer = .ok x) ∧
      (∀ chain kind a, v.errand = .bind chain kind → c.endpoint.contract? kind = some a →
        answer = .ok (.contract (c.contractAt kind a))) := by
  cases h with
  | refused hconnects =>
    cases hconnects with
    | unsupported hchain' => exact absurd hchain' (hchain ▸ hsound.served)
    | unset _ hheld _ => cases hheld
    | failed _ hheld _ _ => cases hheld
  | granted hconnects hgrants =>
    cases hconnects with
    | held _ hheld =>
      obtain rfl := Option.some.inj hheld
      refine ⟨rfl, hgrants.exists_left hsound rfl, ?_, fun chain he => ?_,
        fun chain kind a he ha => ?_⟩
      · rintro x rfl
        exact hgrants.url_eq hsound
      · rw [he] at hgrants
        cases hgrants
        exact ⟨_, rfl⟩
      · rw [he] at hgrants
        exact hgrants.eq_contractAt hsound ha
    | made _ hheld _ _ => cases hheld

/-- **Only a connected chain hands something out.** -/
theorem Settles.exists_left {x : Grant} (h : Settles settings net held v (.ok x) sent cs)
    (hchain : ∀ c ∈ held, c.chain = v.chain) (hsound : ∀ c ∈ held, c.Sound settings) :
    ∃ d, cs.getLast?.or held = some d ∧ x.url = d.url := by
  cases h with
  | granted hconnects hgrants =>
    obtain ⟨-, hs, hleft, -⟩ := hconnects.sound hchain hsound
    obtain ⟨d, hd, hagrees⟩ := hgrants.exists_left hs hleft
    exact ⟨d, hd, (hgrants.url_eq hs).trans hagrees.url.symm⟩

/-- **A contract has the address that the settings give** for its chain and kind. -/
theorem Settles.addressed {chain : ℕ} {kind : ContractKind} {k : Contract}
    (h : Settles settings net held v (.ok (.contract k)) sent cs)
    (he : v.errand = .bind chain kind) (hchain : ∀ c ∈ held, c.chain = v.chain)
    (hsound : ∀ c ∈ held, c.Sound settings) :
    k.kind = kind ∧ k.chain = chain ∧
      ∃ e, settings.endpoint? chain = some e ∧ e.contract? kind = some k.address := by
  have hv : v.chain = chain := by rw [Visit.chain, he, Errand.chain]
  cases h with
  | granted hconnects hgrants =>
    obtain ⟨hc, hs, -, -⟩ := hconnects.sound hchain hsound
    have hendpoint := hs.endpoint
    rw [hc, hv] at hendpoint
    rw [he] at hgrants
    cases hgrants with
    | bound hbound =>
      obtain ⟨a, ha, rfl⟩ := hs.bound _ _ hbound
      exact ⟨rfl, hc.trans hv, _, hendpoint, ha⟩
    | binds _ ha => exact ⟨rfl, hc.trans hv, _, hendpoint, ha⟩

end Settled

/-! ### Visits, one after the other -/

variable {r r' : Registry} (v : Visit τ) (vs : List (Visit τ))

variable (net) in
/-- What comes of a visit to a sound registry. -/
theorem Registry.Sound.exists_settles (hr : r.Sound settings) :
    ∃ answer sent cs, Settles settings net (r.connection? v.chain) v answer sent cs ∧
      v.upshot settings net r = ⟨answer, sent, r.written cs⟩ ∧
      (∀ d ∈ cs, d.chain = v.chain ∧ d.Sound settings) ∧
      (r.written cs).connection? v.chain = cs.getLast?.or (r.connection? v.chain) := by
  obtain ⟨answer, sent, cs, hsettles, hupshot⟩ :=
    v.exists_upshot settings net (r.connection? v.chain)
  have hcs := hsettles.sound (hr.chain_eq v.chain) (hr.sound v.chain)
  exact ⟨answer, sent, cs, hsettles, hupshot r rfl, hcs,
    Registry.connection?_written_self fun d hd => (hcs d hd).1⟩

theorem Visit.connection?_upshot_of_ne {chain : ℕ} (hr : r.Sound settings) (h : v.chain ≠ chain) :
    (v.upshot settings net r).registry.connection? chain = r.connection? chain := by
  obtain ⟨answer, sent, cs, -, hupshot, hcs, -⟩ := hr.exists_settles net v
  rw [hupshot]
  exact Registry.connection?_written_of_ne fun d hd => (hcs d hd).1 ▸ h

/-- **A visit leaves a sound registry.** -/
theorem Registry.Sound.upshot (hr : r.Sound settings) :
    (v.upshot settings net r).registry.Sound settings := by
  obtain ⟨answer, sent, cs, -, hupshot, hcs, -⟩ := hr.exists_settles net v
  rw [hupshot]
  exact hr.written fun d hd => (hcs d hd).2

theorem Registry.Sound.visited (hr : r.Sound settings) :
    (r.visited settings net vs).Sound settings := by
  induction vs generalizing r with
  | nil => exact hr
  | cons v vs ih => exact ih (hr.upshot v)

/-- **A connection lasts**, to the same endpoint. -/
theorem Registry.Sound.keeps (hr : r.Sound settings) {chain : ℕ}
    (hc : r.connection? chain = some c) :
    ∃ d, (r.visited settings net vs).connection? chain = some d ∧ c.Agrees d := by
  induction vs generalizing r c with
  | nil => exact ⟨c, hc, rfl, rfl, rfl⟩
  | cons v vs ih =>
    by_cases h : v.chain = chain
    · subst h
      obtain ⟨answer, sent, cs, hsettles, hupshot, -, hleft⟩ := hr.exists_settles net v
      rw [hc] at hsettles hleft
      obtain ⟨-, ⟨d, hd, hagrees⟩, -, -, -⟩ := hsettles.of_held (hr.sound _ _ hc) (hr.chain_eq _ _ hc)
      have hnext : (v.upshot settings net r).registry.connection? v.chain = some d := by
        rw [hupshot, hleft, hd]
      obtain ⟨d', hd', hagrees'⟩ := ih (hr.upshot v) hnext
      exact ⟨d', hd', hagrees'.chain.trans hagrees.chain, hagrees'.url.trans hagrees.url,
        hagrees'.endpoint.trans hagrees.endpoint⟩
    · exact ih (hr.upshot v) ((v.connection?_upshot_of_ne hr h).trans hc)

/-- What comes of a visit is the same for two registries that have the same
connection of its chain. -/
theorem Visit.upshot_congr (hr : r.Sound settings)
    (h : r.connection? v.chain = r'.connection? v.chain) :
    (v.upshot settings net r).answer = (v.upshot settings net r').answer ∧
      (v.upshot settings net r).sent = (v.upshot settings net r').sent ∧
      (v.upshot settings net r).registry.connection? v.chain =
        (v.upshot settings net r').registry.connection? v.chain := by
  obtain ⟨answer, sent, cs, hsettles, hupshot⟩ :=
    v.exists_upshot settings net (r.connection? v.chain)
  have hcs := hsettles.sound (hr.chain_eq v.chain) (hr.sound v.chain)
  rw [hupshot r rfl, hupshot r' h.symm]
  refine ⟨rfl, rfl, ?_⟩
  rw [Registry.connection?_written_self fun d hd => (hcs d hd).1,
    Registry.connection?_written_self fun d hd => (hcs d hd).1, h]

/-- **Visits for other chains are nothing to a chain.** -/
theorem Registry.Sound.connection?_visited_filter (hr : r.Sound settings)
    (hr' : r'.Sound settings) {chain : ℕ} (h : r.connection? chain = r'.connection? chain) :
    (r.visited settings net vs).connection? chain =
      (r'.visited settings net (vs.filter (·.chain = chain))).connection? chain := by
  induction vs generalizing r r' with
  | nil => exact h
  | cons v vs ih =>
    by_cases hv : v.chain = chain
    · rw [List.filter_cons_of_pos (by simpa using hv)]
      subst hv
      exact ih (hr.upshot v) (hr'.upshot v) (v.upshot_congr hr h).2.2
    · rw [List.filter_cons_of_neg (by simpa using hv)]
      exact ih (hr.upshot v) hr' ((v.connection?_upshot_of_ne hr hv).trans h)

end Invariant

/-! ## What holds of every row of visits -/

/-- A registry that was new, and was visited `before`. -/
def registryAfter (before : List (Visit τ)) : Registry := .visited settings net {} before

/-- **What comes of a visit** to a registry that was visited `before`. -/
def Visit.upshotAfter (before : List (Visit τ)) (v : Visit τ) : Upshot :=
  v.upshot settings net (registryAfter settings net before)

/-- **Endpoints and contracts are kept as they should be**, by what comes of a
visit to a registry that was visited `before`. -/
structure Visit.Cached (before : List (Visit τ)) (v : Visit τ) : Prop where
  /-- A chain that is not served is refused, and nothing is sent. -/
  unsupported : ChainFamily.ofChain? v.chain = none →
    v.upshotAfter settings net before =
      ⟨.error (.unsupported v.chain), [], registryAfter settings net before⟩
  /-- Only a connected chain hands something out, for its endpoint. -/
  connected : ∀ x, (v.upshotAfter settings net before).answer = .ok x →
    ∃ c, (v.upshotAfter settings net before).registry.connection? v.chain = some c ∧
      x.url = c.url
  /-- A search that finds an endpoint connects the chain to it. -/
  provisioned : ∀ e url, ChainFamily.ofChain? v.chain ≠ none →
    (registryAfter settings net before).connection? v.chain = none →
    settings.endpoint? v.chain = some e →
    (provisioning settings net v.chain e v.nodes).1 = .ok url →
      (v.upshotAfter settings net before).sent =
        (provisioning settings net v.chain e v.nodes).2.2 ∧
      ∃ c, (v.upshotAfter settings net before).registry.connection? v.chain = some c ∧ c.url = url
  /-- A chain that was connected sends no more, and stays at its endpoint; it
  hands itself out, and each contract that the settings name. -/
  reused : ∀ earlier later c, before = earlier ++ later →
    (registryAfter settings net earlier).connection? v.chain = some c →
      (v.upshotAfter settings net before).sent = [] ∧
      (∀ x, (v.upshotAfter settings net before).answer = .ok x → x.url = c.url) ∧
      (∀ chain, v.errand = .connect chain →
        ∃ x, (v.upshotAfter settings net before).answer = .ok x) ∧
      (∀ chain kind e a, v.errand = .bind chain kind → settings.endpoint? chain = some e →
        e.contract? kind = some a →
          (v.upshotAfter settings net before).answer = .ok (.contract ⟨kind, a, chain, c.url⟩))
  /-- A search for an endpoint that fails leaves the registry as it was, and
  the next visit for the chain searches afresh. -/
  retried : ∀ e err, ChainFamily.ofChain? v.chain ≠ none →
    (registryAfter settings net before).connection? v.chain = none →
    settings.endpoint? v.chain = some e →
    (provisioning settings net v.chain e v.nodes).1 = .error err →
      v.upshotAfter settings net before =
        ⟨.error err, (provisioning settings net v.chain e v.nodes).2.2,
          registryAfter settings net before⟩ ∧
      ∀ (later : List (Visit τ)) (w : Visit τ), (∀ u ∈ later, u.chain ≠ v.chain) →
        w.chain = v.chain →
          (w.upshotAfter settings net (before ++ v :: later)).sent =
            (provisioning settings net v.chain e w.nodes).2.2 ∧
          (e.urls ≠ [] → ∃ url ∈ e.urls,
            (provisioning settings net v.chain e w.nodes).2.2.head?.map (·.request) =
              some ⟨url, "eth_syncing", .arr []⟩)
  /-- Visits for other chains do not change what comes of it. -/
  isolated :
    let alone := before.filter (·.chain = v.chain)
    (v.upshotAfter settings net before).answer = (v.upshotAfter settings net alone).answer ∧
      (v.upshotAfter settings net before).sent = (v.upshotAfter settings net alone).sent ∧
      (v.upshotAfter settings net before).registry.connection? v.chain =
        (v.upshotAfter settings net alone).registry.connection? v.chain
  /-- A contract is the one that the first endpoint of the chain names. -/
  addressed : ∀ chain kind k, v.errand = .bind chain kind →
    (v.upshotAfter settings net before).answer = .ok (.contract k) →
      k.kind = kind ∧ k.chain = chain ∧ ∃ e,
        settings.endpoints.find? (·.chain = chain) = some e ∧ e.contract? kind = some k.address

variable {settings net}

/-- A chain that is not connected is searched for, where it is served. -/
theorem Settles.sent_of_open {v : Visit τ} {answer : Except ChainError Grant}
    {sent : List RoundTrip} {cs : List Connection} {e : Endpoint}
    (h : Settles settings net none v answer sent cs)
    (hserved : ChainFamily.ofChain? v.chain ≠ none) (he : settings.endpoint? v.chain = some e) :
    sent = (provisioning settings net v.chain e v.nodes).2.2 ∧
      (∀ err, (provisioning settings net v.chain e v.nodes).1 = .error err →
        answer = .error err ∧ cs = []) ∧
      ∀ url, (provisioning settings net v.chain e v.nodes).1 = .ok url →
        ∃ d, cs.getLast?.or none = some d ∧ d.url = url := by
  cases h with
  | refused hconnects =>
    cases hconnects with
    | unsupported hchain => exact absurd hchain hserved
    | unset _ _ hendpoint => simp [hendpoint] at he
    | failed _ _ hendpoint hsearch =>
      obtain rfl := Option.some.inj (hendpoint.symm.trans he)
      rw [hsearch]
      exact ⟨rfl, fun err herr => ⟨congrArg _ (Except.error.inj herr), rfl⟩, nofun⟩
  | granted hconnects hgrants =>
    obtain ⟨-, hsound, hset, -⟩ := hconnects.sound nofun nofun
    obtain ⟨d, hd, hagrees⟩ := hgrants.exists_left hsound hset
    cases hconnects with
    | held _ hheld => cases hheld
    | made _ _ hendpoint hsearch =>
      obtain rfl := Option.some.inj (hendpoint.symm.trans he)
      rw [hsearch]
      exact ⟨rfl, nofun, fun url hurl => ⟨d, hd, hagrees.url.trans (Except.ok.inj hurl)⟩⟩

/-- A chain that is not served is refused. -/
theorem Settles.of_unserved {v : Visit τ} {held : Option Connection}
    {answer : Except ChainError Grant} {sent : List RoundTrip} {cs : List Connection}
    (h : Settles settings net held v answer sent cs) (hchain : ChainFamily.ofChain? v.chain = none) :
    answer = .error (.unsupported v.chain) ∧ sent = [] ∧ cs = [] := by
  cases h with
  | refused hconnects =>
    cases hconnects with
    | unsupported _ => exact ⟨rfl, rfl, rfl⟩
    | unset hserved _ _ => exact absurd hchain hserved
    | failed hserved _ _ _ => exact absurd hchain hserved
  | granted hconnects hgrants =>
    cases hconnects with
    | held hserved _ => exact absurd hchain hserved
    | made hserved _ _ _ => exact absurd hchain hserved

/-- **A search begins with a probe** of an endpoint of the chain. -/
theorem exists_probe_of_provisioning (chain : ℕ) {e : Endpoint} (nodes : τ) (h : e.urls ≠ []) :
    ∃ url ∈ e.urls, (provisioning settings net chain e nodes).2.2.head?.map (·.request) =
      some ⟨url, "eth_syncing", .arr []⟩ := by
  obtain ⟨k, hk⟩ := exists_stopsAt InStep
    (net.reply settings.probing.cooldownMs (probeAt h (net.choose e.urls.length nodes).1)
      (net.choose e.urls.length nodes).2) (settings.probing.maxAttempts - 1)
  refine ⟨_, around_mem h (net.choose e.urls.length nodes).1 0, ?_⟩
  rw [provisioning, net.sent_provision_of_stopsAt h chain rfl hk, Link.roundTrips,
    List.range_succ_eq_map]
  rfl

section Rows

variable {before : List (Visit τ)} {v : Visit τ}

theorem sound_registryAfter : (registryAfter settings net before).Sound settings :=
  Registry.sound_empty.visited before

theorem registryAfter_append (later : List (Visit τ)) :
    registryAfter settings net (before ++ later) =
      (registryAfter settings net before).visited settings net later :=
  List.foldl_append

/-- **A visit for a connected chain** sends nothing. -/
theorem Visit.upshotAfter_of_connected {c : Connection}
    (hc : (registryAfter settings net before).connection? v.chain = some c) :
    (v.upshotAfter settings net before).sent = [] ∧
      (∀ x, (v.upshotAfter settings net before).answer = .ok x → x.url = c.url) ∧
      (∀ chain, v.errand = .connect chain →
        ∃ x, (v.upshotAfter settings net before).answer = .ok x) ∧
      (∀ chain kind e a, v.errand = .bind chain kind → settings.endpoint? chain = some e →
        e.contract? kind = some a →
          (v.upshotAfter settings net before).answer = .ok (.contract ⟨kind, a, chain, c.url⟩)) := by
  have hr : (registryAfter settings net before).Sound settings := sound_registryAfter
  have hsound := hr.sound _ _ hc
  have hchain := hr.chain_eq _ _ hc
  obtain ⟨answer, sent, cs, hsettles, hupshot, -, -⟩ := hr.exists_settles net v
  rw [hc] at hsettles
  obtain ⟨hsent, -, hurl, hconnect, hbind⟩ := hsettles.of_held hsound hchain
  rw [upshotAfter, hupshot]
  refine ⟨hsent, hurl, hconnect, fun chain kind e a herrand he ha => ?_⟩
  have hv : c.chain = chain := by rw [hchain, Visit.chain, herrand, Errand.chain]
  obtain rfl : c.endpoint = e := Option.some.inj (hsound.endpoint.symm.trans (hv ▸ he))
  exact hv ▸ hbind chain kind a herrand ha

/-- **A visit for a chain that is not connected** searches for an endpoint. -/
theorem Visit.upshotAfter_of_open {e : Endpoint} (hserved : ChainFamily.ofChain? v.chain ≠ none)
    (hopen : (registryAfter settings net before).connection? v.chain = none)
    (he : settings.endpoint? v.chain = some e) :
    (v.upshotAfter settings net before).sent = (provisioning settings net v.chain e v.nodes).2.2 ∧
      (∀ err, (provisioning settings net v.chain e v.nodes).1 = .error err →
        v.upshotAfter settings net before =
          ⟨.error err, (provisioning settings net v.chain e v.nodes).2.2,
            registryAfter settings net before⟩) ∧
      (∀ url, (provisioning settings net v.chain e v.nodes).1 = .ok url →
        ∃ c, (v.upshotAfter settings net before).registry.connection? v.chain = some c ∧
          c.url = url) := by
  have hr : (registryAfter settings net before).Sound settings := sound_registryAfter
  obtain ⟨answer, sent, cs, hsettles, hupshot, -, hleft⟩ := hr.exists_settles net v
  rw [hopen] at hsettles hleft
  obtain ⟨rfl, hfails, hfinds⟩ := hsettles.sent_of_open hserved he
  rw [upshotAfter, hupshot]
  refine ⟨rfl, fun err herr => ?_, fun url hurl => ?_⟩
  · obtain ⟨rfl, rfl⟩ := hfails err herr
    rfl
  · rw [hleft]
    exact hfinds url hurl

/-- A chain stays without a connection while only others are visited. -/
theorem connection?_visited_of_others {r : Registry} (hr : r.Sound settings) {chain : ℕ}
    {later : List (Visit τ)} (hlater : ∀ u ∈ later, u.chain ≠ chain) :
    (r.visited settings net later).connection? chain = r.connection? chain := by
  rw [hr.connection?_visited_filter later hr rfl,
    List.filter_eq_nil_iff.mpr (by simpa using hlater)]
  rfl

/-- **After a search that failed** the next visit for the chain searches afresh. -/
theorem Visit.sent_after_failure {e : Endpoint} {err : ChainError}
    (hserved : ChainFamily.ofChain? v.chain ≠ none)
    (hopen : (registryAfter settings net before).connection? v.chain = none)
    (he : settings.endpoint? v.chain = some e)
    (hfails : (provisioning settings net v.chain e v.nodes).1 = .error err)
    {later : List (Visit τ)} {w : Visit τ} (hlater : ∀ u ∈ later, u.chain ≠ v.chain)
    (hw : w.chain = v.chain) :
    (w.upshotAfter settings net (before ++ v :: later)).sent =
      (provisioning settings net v.chain e w.nodes).2.2 := by
  have hfailed := (v.upshotAfter_of_open hserved hopen he).2.1 err hfails
  have hsame : registryAfter settings net (before ++ v :: later) =
      (registryAfter settings net before).visited settings net later := by
    rw [registryAfter_append]
    exact congrArg (Registry.visited settings net · later) (congrArg Upshot.registry hfailed)
  have hopen' : (registryAfter settings net (before ++ v :: later)).connection? w.chain = none := by
    rw [hsame, hw, connection?_visited_of_others sound_registryAfter hlater]
    exact hopen
  rw [← hw] at hserved he ⊢
  exact (w.upshotAfter_of_open hserved hopen' he).1

/-- **Endpoints and contracts are cached** over any row of visits, whatever the
nodes do: a chain that is not served is refused at once; a chain is connected
once, and from then on stays at its endpoint and is not probed again; a search
that fails leaves nothing behind; chains do not meddle with each other; and a
contract has the address that the first endpoint of its chain gives. -/
theorem Visit.cached (before : List (Visit τ)) (v : Visit τ) :
    v.Cached settings net before := by
  have hr : (registryAfter settings net before).Sound settings := sound_registryAfter
  obtain ⟨answer, sent, cs, hsettles, hupshot, -, hleft⟩ := hr.exists_settles net v
  rw [← Visit.upshotAfter] at hupshot
  constructor
  case unsupported =>
    intro hchain
    rw [hupshot]
    obtain ⟨rfl, rfl, rfl⟩ := hsettles.of_unserved hchain
    rfl
  case connected =>
    rintro x hx
    rw [hupshot] at hx ⊢
    obtain rfl : answer = .ok x := hx
    rw [hleft]
    exact hsettles.exists_left (hr.chain_eq v.chain) (hr.sound v.chain)
  case provisioned =>
    intro e url hserved hopen he hfound
    obtain ⟨hsent, -, hmade⟩ := v.upshotAfter_of_open hserved hopen he
    exact ⟨hsent, hmade url hfound⟩
  case reused =>
    rintro earlier later c rfl hc
    obtain ⟨d, hd, hagrees⟩ := sound_registryAfter.keeps later hc
    rw [← registryAfter_append] at hd
    rw [← hagrees.url]
    exact v.upshotAfter_of_connected hd
  case retried =>
    intro e err hserved hopen he hfails
    refine ⟨(v.upshotAfter_of_open hserved hopen he).2.1 err hfails, fun later w hlater hw => ?_⟩
    exact ⟨sent_after_failure hserved hopen he hfails hlater hw,
      exists_probe_of_provisioning v.chain w.nodes⟩
  case isolated =>
    exact v.upshot_congr hr (Registry.sound_empty.connection?_visited_filter before
      Registry.sound_empty rfl)
  case addressed =>
    intro chain kind k herrand hk
    rw [hupshot] at hk
    obtain rfl : answer = .ok (.contract k) := hk
    exact hsettles.addressed herrand (hr.chain_eq v.chain) (hr.sound v.chain)

end Rows

end Visits

end ChainLedger
