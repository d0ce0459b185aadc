import ChainLedger.Chain.ContractKind
import ChainLedger.Codec.Record

/-!
# Settings of the chains

The endpoints of each chain with its contracts, how often a failed request
is tried again, how long a synced endpoint is looked for, and how many
blocks one request for logs may span.
-/

namespace ChainLedger

/-- How often a request is tried, and how long to wait between tries. -/
structure RetryPolicy where
  maxAttempts : Nat := 3
  delayMs : Nat := 1000
deriving DecidableEq, Repr

/-- How often endpoints are probed, and how long to wait between probes. -/
structure ProbePolicy where
  maxAttempts : Nat := 10
  cooldownMs : Nat := 500
deriving DecidableEq, Repr

/-- The endpoints of a chain, and its contracts by kind. -/
structure Endpoint where
  chain : Nat
  urls : List String
  contracts : List (ContractKind × Address)
deriving DecidableEq

/-- The settings of all chains. -/
structure ChainSettings where
  endpoints : List Endpoint := []
  retry : RetryPolicy := {}
  probing : ProbePolicy := {}
  logRange : Nat := 0
deriving DecidableEq

namespace RetryPolicy

/-- A policy as it is written in settings. -/
def codec : Codec RetryPolicy :=
  Codec.record "RetryPolicy" <|
    (Codec.Fields.start RetryPolicy.mk).field "max_attempts" (Codec.word 32) maxAttempts
      |>.field "delay_ms" (Codec.word 64) delayMs

end RetryPolicy

namespace ProbePolicy

/-- A policy as it is written in settings. -/
def codec : Codec ProbePolicy :=
  Codec.record "ProbePolicy" <|
    (Codec.Fields.start ProbePolicy.mk).field "max_attempts" (Codec.word 32) maxAttempts
      |>.field "cooldown_ms" (Codec.word 64) cooldownMs

end ProbePolicy

namespace Endpoint

/-- The contracts of a chain by the names of their kinds. -/
def contractsCodec : Codec (List (ContractKind × Address)) :=
  Codec.mapOf (Codec.ofName ContractKind.named) ContractKind.name Codec.address

/-- An endpoint as it is written in settings. -/
def codec : Codec Endpoint :=
  Codec.record "Endpoint" <|
    (Codec.Fields.start Endpoint.mk).field "chain_id" (Codec.word 64) chain
      |>.field "urls" (Codec.list Codec.text) urls
      |>.fieldOr "contracts" contractsCodec contracts []

/-- The address of the contract of a kind. -/
def contract? (e : Endpoint) (kind : ContractKind) : Option Address :=
  (e.contracts.find? (·.1 = kind)).map (·.2)

end Endpoint

namespace ChainSettings

/-- How many blocks a request for logs spans where settings do not say. -/
def defaultLogRange : Nat := 5000

/-- The settings of the chains as they are written. -/
def codec : Codec ChainSettings :=
  Codec.record "ChainSettings" <|
    (Codec.Fields.start ChainSettings.mk).field "endpoints" (Codec.list Endpoint.codec) endpoints
      |>.fieldOr "retry" RetryPolicy.codec retry {}
      |>.fieldOr "provisioning" ProbePolicy.codec probing {}
      |>.fieldOr "getlogs_max_range" (Codec.word 64) logRange defaultLogRange

/-- **The endpoint of a chain** is the first one that names it. -/
def endpoint? (s : ChainSettings) (chain : Nat) : Option Endpoint :=
  s.endpoints.find? (·.chain = chain)

end ChainSettings

end ChainLedger
