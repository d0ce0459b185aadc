import ChainLedger.Transition.Attempt

/-!
# Administrators

An administrator's record takes over the role and the state that the chain
has for it.
-/

namespace ChainLedger

/-- The status that a record takes over. -/
def AdminChange.status (p : AdminChange) : RecordStatus :=
  if p.isActive then .active else .inactive

/-- The record is as the event says already. -/
def Admin.inSync (a : Admin) (p : AdminChange) : Bool :=
  a.onChainStatus = .onChain && a.role = p.role && a.status = p.status

/-- The record takes over what the event says. -/
def AdminChange.apply (p : AdminChange) : Commit := fun clock l => do
  let key := p.wallet.checksummed
  let admin ← orRefuse (missing .admin key) (l.admins.get? key)
  require (¬ admin.inSync p) (.skip (.adminInSync key))
  let admins ← l.admins.update (clock 0) key fun a =>
    { a with role := p.role, status := p.status, onChainStatus := .onChain }
  return ({ l with admins := admins }, [])

/-- **An administrator was set.** -/
def AdminChange.attempt (p : AdminChange) : Attempt := .commit p.apply

end ChainLedger
