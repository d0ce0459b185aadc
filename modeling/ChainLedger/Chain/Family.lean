/-!
# Chain families

The chains that are served, by family. A chain id outside both families is
refused before anything is sent.
-/

namespace ChainLedger

/-- The two families of chains. -/
inductive ChainFamily
  | ethereum
  | bnbSmartChain
deriving DecidableEq, Repr

namespace ChainFamily

/-- The chain ids of a family. -/
def chainIds : ChainFamily → List Nat
  | .ethereum => [1, 5, 11155111]
  | .bnbSmartChain => [56, 97]

/-- The name of a family. -/
def name : ChainFamily → String
  | .ethereum => "Ethereum"
  | .bnbSmartChain => "BnbSmartChain"

/-- The family that a chain id belongs to. -/
def ofChain? (chain : Nat) : Option ChainFamily :=
  [ethereum, bnbSmartChain].find? fun f => f.chainIds.contains chain

end ChainFamily

end ChainLedger
