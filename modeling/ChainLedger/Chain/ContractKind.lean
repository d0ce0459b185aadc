import ChainLedger.Codec.Basic

/-!
# Kinds of contracts

The contracts that a chain may be configured with, at most one of each kind.
-/

namespace ChainLedger

/-- What a deployed contract is for. -/
inductive ContractKind
  | nft
  | fnft
  | iaoEvent
  | revenue
  | staking
deriving DecidableEq, Repr

namespace ContractKind

/-- The name of a kind, in settings and in messages. -/
def name : ContractKind → String
  | .nft => "nft"
  | .fnft => "fnft"
  | .iaoEvent => "iao_event"
  | .revenue => "revenue"
  | .staking => "staking"

/-- The kinds under their names. -/
def named : List (String × ContractKind) :=
  [nft, fnft, iaoEvent, revenue, staking].map fun k => (k.name, k)

/-- A kind as its name. -/
def codec : Codec ContractKind := Codec.oneOf named name

end ContractKind

end ChainLedger
