import ChainLedger.Transition.Attempt

/-!
# Stakes

A pool comes into being on its chain once. An account moves its stake in it
once for each transaction, and a stake never becomes negative.
-/

namespace ChainLedger

namespace StakeChange

/-- A change that makes sense, with the hash that it is kept by. -/
def sensible (d : StakeDirection) (o : Origin) (p : StakeChange) : Except Refusal String := do
  let txHash ← o.requireTxHash
  require (¬ p.amount ≤ .zero) (.malformed (.stakeAmount d txHash p.amount))
  return txHash

/-- The key of the stake. -/
def positionKey (p : StakeChange) : String := keyOf p.poolId p.account

/-- What is staked before the change. -/
def staked (p : StakeChange) (l : Ledgers) : Decimal :=
  ((l.stakes.get? p.positionKey).map (·.staked)).getD .zero

/-- What is staked after the change, if it is a decimal. -/
def moved (d : StakeDirection) (p : StakeChange) (current : Decimal) : Option Decimal :=
  match d with
  | .stake => current.add? p.amount
  | .unstake => current.sub? p.amount

/-- Writes the stake. -/
def record (p : StakeChange) (clock : Clock) (next : Decimal)
    (stakes : Collection StakePosition) : Except Refusal (Collection StakePosition) :=
  if stakes.contains p.positionKey then
    stakes.update (clock 0) p.positionKey fun s => { s with staked := next }
  else stakes.insert (clock 1) ⟨p.poolId, p.account, next, clock 0 p.positionKey⟩

/-- The stake is moved, and a receipt is kept. -/
def apply (d : StakeDirection) (p : StakeChange) (txHash : String) : Commit := fun clock l => do
  require (¬ l.stakeReceipts.contains txHash) (.skip (.stakeApplied d txHash))
  let pool ← orRefuse (missing .tieringPool p.poolId) (l.pools.get? p.poolId)
  require (pool.status = .onChain) (.skip (.poolNotOnChain p.poolId))
  let current := p.staked l
  let next ← orOverflow (.stake p.account p.poolId) (p.moved d current)
  require (¬ next < .zero) (.breach (.unstakeExceeds txHash p.amount current p.poolId))
  let stakes ← p.record clock next l.stakes
  let receipts ← l.stakeReceipts.insert (clock 3)
    ⟨txHash, p.poolId, p.account, p.amount, d, clock 2 txHash⟩
  return ({ l with stakes := stakes, stakeReceipts := receipts }, [])

/-- **An account moved its stake.** -/
def attempt (d : StakeDirection) (o : Origin) (p : StakeChange) : Attempt :=
  .check (p.sensible d o) fun txHash =>
  .commit (p.apply d txHash)

end StakeChange

namespace PoolCreated

/-- The pool is on its chain. -/
def apply (p : PoolCreated) : Commit := fun clock l => do
  let pool ← orRefuse (missing .tieringPool p.poolId) (l.pools.get? p.poolId)
  require (pool.status = .draft) (.skip (.poolOnChain p.poolId))
  let pools ← l.pools.update (clock 0) p.poolId fun q =>
    { q with status := .onChain, token := if p.token.isSome then p.token else q.token }
  return ({ l with pools := pools }, [])

/-- **A pool was created.** -/
def attempt (p : PoolCreated) : Attempt := .commit p.apply

end PoolCreated

end ChainLedger
