/-!
# Operations without a result

Some operators are used where their result is taken to exist. When it does
not, the handler that used them stops at once, writes nothing, and the event
is reported as failed with the wording of the trap.
-/

namespace ChainLedger

/-- An operation that has no result where one was taken for granted. -/
inductive Trap
  /-- A difference outside the decimal range. -/
  | subtraction
  /-- A product outside the decimal range. -/
  | multiplication
  /-- A quotient outside the decimal range. -/
  | division
  /-- A division by zero. -/
  | divisionByZero
  /-- An instant past the end of the calendar. -/
  | instant
deriving DecidableEq, Repr

/-- The wording of a trap. -/
def Trap.message : Trap → String
  | .subtraction => "Subtraction overflowed"
  | .multiplication => "Multiplication overflowed"
  | .division => "Division overflowed"
  | .divisionByZero => "Division by zero"
  | .instant => "`DateTime + TimeDelta` overflowed"

end ChainLedger
