import ChainLedger.Ledger.Document
import ChainLedger.Decimal.Arithmetic

/-!
# Stages of an offering

Where an offering stands at an instant. Each window holds its start and not
its end, so an instant on a boundary belongs to the later stage. After the
last window an offering is complete, unless it is one that needs a share of
its supply sold and has not sold it.
-/

namespace ChainLedger

/-- The stages of an offering. -/
inductive Stage
  | upcoming
  | registerNow
  | onSaleSoon
  | onSale
  | completed
  | failed
deriving DecidableEq, Repr

/-- The name of a stage. -/
def Stage.name : Stage → String
  | .upcoming => "Upcoming"
  | .registerNow => "RegisterNow"
  | .onSaleSoon => "OnSaleSoon"
  | .onSale => "OnSale"
  | .completed => "Completed"
  | .failed => "Failed"

/-- The four instants that part the life of an offering. -/
structure Schedule where
  registrationStart : Instant
  registrationEnd : Instant
  participationStart : Instant
  participationEnd : Instant
deriving DecidableEq

/-- **The stage at an instant.** The boundaries are looked at in order, and
the first that lies ahead decides. -/
def Schedule.stage (w : Schedule) (now : Instant) (vaultType : VaultType) (enoughSold : Bool) :
    Stage :=
  if now < w.registrationStart then .upcoming
  else if now < w.registrationEnd then .registerNow
  else if now < w.participationStart then .onSaleSoon
  else if now < w.participationEnd then .onSale
  else if vaultType = .nonVault ∨ enoughSold then .completed
  else .failed

/-- **Enough is sold**: the sold part of the supply is at least so many
percent of it. Products are compared where they exist, and quotients near
the end of the decimal range. -/
def thresholdMet (total available percent : Decimal) : Except Trap Bool := do
  let sold ← total.sub available
  match sold.mul? .hundred, total.mul? percent with
  | some soldPercent, some needed => return decide (needed ≤ soldPercent)
  | _, _ =>
    let share ← sold.div total
    let soldPercent ← share.mul .hundred
    return decide (percent ≤ soldPercent)

namespace Offering

/-- How much of an offering is sold. -/
def soldAmount (o : Offering) : Except Trap Decimal :=
  o.totalSupply.sub o.availableSupply

/-- The schedule of an offering. -/
def schedule (o : Offering) : Schedule where
  registrationStart := o.registrationStart
  registrationEnd := o.registrationEnd
  participationStart := o.participationStart
  participationEnd := o.participationEnd

/-- The stage of an offering at an instant. -/
def stage (o : Offering) (now : Instant) : Except Trap Stage := do
  let enough ← thresholdMet o.totalSupply o.availableSupply o.unlockThreshold
  return o.schedule.stage now o.vaultType enough

end Offering

end ChainLedger
