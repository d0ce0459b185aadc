import ChainLedger.Ledger.Refusal

/-!
# Exchange rates

A table of rates by currency. A currency without a rate, or with one that is
not positive, leaves an approval without an answer. In settings the
currencies are texts; two spellings of one address are one currency, and the
later one counts.
-/

namespace ChainLedger

/-- The rate of each currency. -/
structure ExchangeRates where
  table : List (Address × Decimal) := []

namespace ExchangeRates

/-- Sets the rate of a currency. -/
def set (r : ExchangeRates) (currency : Address) (rate : Decimal) : ExchangeRates :=
  ⟨(currency, rate) :: r.table.filter (·.1 ≠ currency)⟩

/-- A currency from its text. -/
def currency (key : String) : Except RateFault Address :=
  (Address.ofText? key).mapError (.badCurrency key)

/-- Sets the rates of a list of members, one after the other. -/
def setAll (r : ExchangeRates) : List (String × Decimal) → Except RateFault ExchangeRates
  | [] => .ok r
  | (key, rate) :: rest => do
    let c ← currency key
    setAll (r.set c rate) rest

/-- **The table that settings give.** -/
def ofSettings (ms : List (String × Decimal)) : Except RateFault ExchangeRates :=
  setAll {} ms

/-- **The rate of a currency.** -/
def rate? (r : ExchangeRates) (currency : Address) : Except RateFault Decimal :=
  match r.table.find? (·.1 = currency) with
  | none => .error (.unknown currency)
  | some (_, rate) =>
    if Decimal.zero < rate then .ok rate else .error (.notPositive rate currency)

end ExchangeRates

end ChainLedger
