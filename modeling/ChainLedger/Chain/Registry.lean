import ChainLedger.Chain.Provision
import ChainLedger.Chain.Family

/-!
# The registry of chains

A chain is connected when it is first asked for, to a synced endpoint, and
stays connected to it. A chain that cannot be connected is left as it was,
so the next question looks for an endpoint afresh. A contract is bound once
for each chain and kind, to the address that the settings give.
-/

namespace ChainLedger

/-- A contract on a connected chain. -/
structure Contract where
  kind : ContractKind
  address : Address
  chain : Nat
  url : String
deriving DecidableEq

/-- A chain that is connected to an endpoint. -/
structure Connection where
  chain : Nat
  url : String
  endpoint : Endpoint
  bound : List (ContractKind × Contract)
deriving DecidableEq

namespace Connection

/-- The contract of a kind, if it was bound before. -/
def bound? (c : Connection) (kind : ContractKind) : Option Contract :=
  (c.bound.find? (·.1 = kind)).map (·.2)

/-- A contract at an address of its own. -/
def contractAt (c : Connection) (kind : ContractKind) (address : Address) : Contract :=
  ⟨kind, address, c.chain, c.url⟩

end Connection

/-- The chains that are connected. -/
structure Registry where
  connections : List (Nat × Connection) := []
deriving DecidableEq

namespace Registry

/-- The connection of a chain. -/
def connection? (r : Registry) (chain : Nat) : Option Connection :=
  (r.connections.find? (·.1 = chain)).map (·.2)

/-- Sets the connection of a chain. -/
def set (r : Registry) (c : Connection) : Registry :=
  ⟨(c.chain, c) :: r.connections.filter (·.1 ≠ c.chain)⟩

/-- The contract of a kind on a chain, if it was bound before. -/
def bound? (r : Registry) (chain : Nat) (kind : ContractKind) : Option Contract :=
  (r.connection? chain).bind (·.bound? kind)

end Registry

/-- The settings of the chains, a link to their nodes, and where the state
keeps the registry. -/
structure Chains (σ : Type) where
  settings : ChainSettings
  net : Link σ
  registry : σ → Registry
  setRegistry : Registry → σ → σ

namespace Chains

variable {σ : Type} (g : Chains σ)

/-- Connects a chain to a synced endpoint. -/
def connect (chain : Nat) : Session σ Connection :=
  match g.settings.endpoint? chain with
  | none => throw (.settings (.noEndpoint chain))
  | some e => do
    let url ← g.net.provision chain e.urls g.settings.probing
    let c : Connection := ⟨chain, url, e, []⟩
    modify fun s => g.setRegistry ((g.registry s).set c) s
    return c

/-- **The connection of a chain**, made now if there is none. A chain that
is not served is refused first. -/
def connection (chain : Nat) : Session σ Connection :=
  match ChainFamily.ofChain? chain with
  | none => throw (.unsupported chain)
  | some _ => do
    match (g.registry (← get)).connection? chain with
    | some c => return c
    | none => g.connect chain

/-- **The contract of a kind on a chain**, bound now if it is not. -/
def contract (chain : Nat) (kind : ContractKind) : Session σ Contract := do
  let c ← g.connection chain
  match c.bound? kind with
  | some b => return b
  | none =>
    match c.endpoint.contract? kind with
    | none => throw (.settings (.noContract kind chain))
    | some a =>
      let b := c.contractAt kind a
      modify fun s => g.setRegistry ((g.registry s).set { c with bound := (kind, b) :: c.bound }) s
      return b

end Chains

end ChainLedger
