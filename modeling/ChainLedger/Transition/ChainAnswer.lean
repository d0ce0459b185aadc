import ChainLedger.Chain.Query
import ChainLedger.Transition.Attempt

/-!
# Answers from the chains

Questions of an attempt, answered by the chains and by a table of rates. The
owner of a token is asked of the chain's token contract; the supply of a
fractional token of that token itself, first the amount and then the
fraction digits.
-/

namespace ChainLedger.Chains

variable {σ α : Type} (g : Chains σ)

/-- What a session answers, as the answer to a question. -/
def answered (x : Session σ α) (s : σ) : Except Refusal α × σ :=
  let (a, s) := x.runFrom s
  (a.mapError .chain, s)

/-- The supply of a fractional token and its fraction digits. -/
def supplyOf (chain : Nat) (token : Address) : Session σ (Nat × Nat) := do
  let c ← g.connection chain
  let k := c.contractAt .fnft token
  let raw ← g.call k .totalSupply
  let decimals ← g.call k .decimals
  return (raw, decimals)

/-- The owner of a token. -/
def ownerOf (chain : Nat) (token : BitVec 256) : Session σ Address := do
  let k ← g.contract chain .nft
  g.call k (.ownerOf token)

/-- The receipt of a transaction. -/
def receiptOf (chain : Nat) (hash : Hash) : Session σ (Option Receipt) := do
  let c ← g.connection chain
  g.receipt c hash

/-- **The answer to a question.** -/
def answer (rate : Nat → Address → σ → Except Refusal Decimal × σ) :
    (q : Question) → σ → q.Answer × σ
  | .owner chain token => answered (g.ownerOf chain token)
  | .supply chain token => answered (g.supplyOf chain token)
  | .receipt chain hash => answered (g.receiptOf chain hash)
  | .rate chain currency => rate chain currency

end ChainLedger.Chains
