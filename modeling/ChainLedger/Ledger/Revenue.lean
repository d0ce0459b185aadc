import ChainLedger.Ledger.Ledgers
import ChainLedger.Decimal.Arithmetic

/-!
# The revenue ledger

Revenue is kept by beneficiary, offering and currency. At most one entry of
such a triple is open: approvals add to it, a withdrawal closes it for good,
and the next approval opens a new one at the rate of its day.
-/

namespace ChainLedger

/-- A currency, and its exchange rate when revenue in it is approved. -/
structure Quote where
  currency : Address
  rate : Decimal
deriving DecidableEq

/-- Whose revenue, from which offering, in which currency. -/
structure Account where
  beneficiaryId : String
  offeringId : String
  currency : Address
deriving DecidableEq

namespace RevenueEntry

/-- The account of an entry. -/
def account (e : RevenueEntry) : Account := ⟨e.beneficiaryId, e.offeringId, e.currency⟩

/-- The entry is the open one of an account. -/
def isOpenFor (e : RevenueEntry) (a : Account) : Bool := !e.isWithdrawn && e.account = a

end RevenueEntry

/-- The id of the entry of an account that follows `generation` others. -/
def Account.entryId (a : Account) (generation : Nat) : String :=
  a.beneficiaryId ++ ":" ++ a.offeringId ++ ":" ++ a.currency.checksummed ++ ":"
    ++ toString generation

namespace Ledgers

/-- The open entry of an account. -/
def openEntry? (l : Ledgers) (a : Account) : Option RevenueEntry :=
  l.revenue.find? (·.isOpenFor a)

/-- How many entries an account has had. -/
def generation (l : Ledgers) (a : Account) : Nat :=
  (l.revenue.filter (·.account = a)).length

/-- Adds to an open entry. -/
def topUp (clock : Clock) (e : RevenueEntry) (amount : Decimal) (l : Ledgers) :
    Except Refusal Ledgers := do
  let balance ← orOverflow (.entry e.id) (e.balance.add? amount)
  let revenue ← l.revenue.update (clock 0) e.id fun e => { e with balance := balance }
  return { l with revenue := revenue }

/-- Opens an entry. -/
def openEntry (clock : Clock) (a : Account) (amount rate : Decimal) (l : Ledgers) :
    Except Refusal (String × Ledgers) := do
  let id := a.entryId (l.generation a)
  let entry : RevenueEntry :=
    ⟨id, a.beneficiaryId, a.offeringId, amount, a.currency, rate, false, clock 0 id⟩
  let revenue ← l.revenue.insert (clock 1) entry
  return (id, { l with revenue := revenue })

/-- **Credits approved revenue** to the open entry of an account, opening one
if there is none. Answers the id of the entry. -/
def credit (clock : Clock) (beneficiary offering : String) (amount : Decimal) (quote : Quote)
    (l : Ledgers) : Except Refusal (String × Ledgers) := do
  require (Decimal.zero < amount) (.breach (.revenueNotPositive amount beneficiary offering))
  let a : Account := ⟨beneficiary, offering, quote.currency⟩
  match l.openEntry? a with
  | some e => return (e.id, ← l.topUp clock e amount)
  | none => l.openEntry clock a amount quote.rate

/-- An entry is open and of a beneficiary and an offering, and of a currency
if one is given. -/
def isDue (beneficiary offering : String) (currency : Option Address) (e : RevenueEntry) : Bool :=
  !e.isWithdrawn && e.beneficiaryId = beneficiary && e.offeringId = offering
    && currency.all (· = e.currency)

/-- The sum of some balances, if it is a decimal. -/
def sumBalances (es : List RevenueEntry) : Option Decimal :=
  es.foldl (fun sum e => sum.bind (·.add? e.balance)) (some .zero)

/-- **Closes every open entry** of a beneficiary and an offering, in one
currency or in all. Answers the total of what was closed. -/
def markWithdrawn (now : Readings) (beneficiary offering : String) (currency : Option Address)
    (l : Ledgers) : Except Refusal (Decimal × Ledgers) := do
  let due := isDue beneficiary offering currency
  let total ← orOverflow (.openRevenue beneficiary offering) (sumBalances (l.revenue.filter due))
  let revenue ← l.revenue.updateMany now due fun e => { e with isWithdrawn := true }
  return (total, { l with revenue := revenue })

end Ledgers

/-! ## Dividing an amount -/

/-- How an approved amount is divided. -/
structure RevenueSplit where
  platform : Decimal
  bd : Decimal
  owner : Decimal
deriving DecidableEq

namespace RevenueSplit

/-- So many percent of an amount. -/
def share (amount rate : Decimal) : Except Refusal Decimal := do
  let product ← orOverflow (.share rate amount) (amount.mul? rate)
  trapped (product.div .hundred)

/-- What the platform and the partner get: without a partner, both shares go
to the platform. -/
def taken (amount platform bd : Decimal) (hasBd : Bool) : Except Refusal (Decimal × Decimal) :=
  if hasBd then .ok (platform, bd)
  else (orOverflow (.platformShare amount) (platform.add? bd)).map fun p => (p, .zero)

/-- **Divides an amount by rates in percent.** The owner gets what the
platform and the partner leave. -/
def of (amount platformRate bdRate : Decimal) (hasBd : Bool) : Except Refusal RevenueSplit := do
  let platformShare ← share amount platformRate
  let bdShare ← share amount bdRate
  let (platform, bd) ← taken amount platformShare bdShare hasBd
  let rest := (amount.sub? platform).bind (·.sub? bd)
  let owner ← orOverflow (.ownerShare amount) rest
  require (¬ (platform < .zero ∨ bd < .zero ∨ owner < .zero))
    (.breach (.badSplit amount platformRate bdRate owner))
  return ⟨platform, bd, owner⟩

end RevenueSplit

end ChainLedger
