import ChainLedger.Transition.Confirmation

/-!
# Purchases

A deposit settles one purchase, under the hash of its transaction. What is
available of the offering and of its fractional token drops by the amount,
and neither may become negative; the value is added to what the offering
sold, and both to what the buyer bought.
-/

namespace ChainLedger.FundDeposit

/-- A deposit that may be settled. -/
def settleable (o : Origin) (p : FundDeposit) (seen : Ledgers) : Except Refusal String := do
  let txHash ← o.requireTxHash
  require (¬ (p.amount ≤ .zero ∨ p.value < .zero))
    (.malformed (.depositAmounts txHash p.amount p.value))
  require (¬ seen.purchases.contains txHash) (.skip (.purchaseSettled txHash))
  return txHash

/-- What is left of the offering. -/
def offeringRest (p : FundDeposit) (txHash : String) (offering : Offering) :
    Except Refusal Decimal := do
  let rest ← trapped (offering.availableSupply.sub p.amount)
  require (¬ rest < .zero)
    (.breach (.depositExceedsOffering txHash p.amount p.offeringId offering.availableSupply))
  return rest

/-- What is left of the fractional token. -/
def fnftRest (p : FundDeposit) (txHash : String) (fnftId : String) (fnft : Fnft) :
    Except Refusal Decimal := do
  let rest ← trapped (fnft.availableSupply.sub p.amount)
  require (¬ rest < .zero)
    (.breach (.depositExceedsFnft txHash p.amount fnftId fnft.availableSupply))
  return rest

/-- The key of what the buyer bought of the offering. -/
def whitelistKey (p : FundDeposit) : String := keyOf p.offeringId p.buyer

/-- What the buyer bought so far, with the deposit. -/
def totals (p : FundDeposit) (l : Ledgers) : Except Refusal (Decimal × Decimal) :=
  match l.whitelist.get? p.whitelistKey with
  | none => .ok (p.amount, p.value)
  | some w =>
    match w.purchasedAmount.add? p.amount, w.depositedValue.add? p.value with
    | some purchased, some deposited => .ok (purchased, deposited)
    | _, _ => .error (.breach (.overflow (.whitelist p.whitelistKey)))

/-- Writes what the buyer bought. -/
def record (p : FundDeposit) (clock : Clock) (purchased deposited : Decimal)
    (whitelist : Collection WhitelistEntry) : Except Refusal (Collection WhitelistEntry) :=
  if whitelist.contains p.whitelistKey then
    whitelist.update (clock 0) p.whitelistKey fun w =>
      { w with purchasedAmount := purchased, depositedValue := deposited }
  else
    whitelist.insert (clock 1)
      ⟨p.offeringId, p.buyer, p.amount, p.value, clock 0 p.whitelistKey⟩

/-- What is told of a purchase. -/
def notice (p : FundDeposit) (rest : Decimal) : Effect :=
  .emit "iao-event" "deposit" (.obj
    [("id", .str p.offeringId), ("availableSupply", .str rest.toText),
      ("buyer", .str p.buyer.lower)])

/-- The purchase is settled. -/
def settle (p : FundDeposit) (txHash : String) : Commit := fun clock l => do
  require (¬ l.purchases.contains txHash) (.skip (.purchaseSettled txHash))
  let offering ← orRefuse (missing .offering p.offeringId) (l.offerings.get? p.offeringId)
  require (offering.onChainStatus = .onChain) (.skip (.offeringNotOnChain p.offeringId))
  let rest ← p.offeringRest txHash offering
  let fnft ← orRefuse (missing .fnft offering.fnftId) (l.fnfts.get? offering.fnftId)
  let fnftRest ← p.fnftRest txHash offering.fnftId fnft
  let soldValue ← orOverflow (.soldValue p.offeringId) (offering.soldValue.add? p.value)
  let (purchased, deposited) ← p.totals l
  let purchases ← l.purchases.insert (clock 1)
    ⟨txHash, p.offeringId, p.buyer, p.amount, p.value, clock 0 txHash⟩
  let offerings ← l.offerings.update (clock 2) p.offeringId fun o =>
    { o with availableSupply := rest, soldValue := soldValue }
  let fnfts ← l.fnfts.update (clock 3) offering.fnftId fun f =>
    { f with availableSupply := fnftRest }
  let whitelist ← p.record (clock.later 4) purchased deposited l.whitelist
  let after : Ledgers :=
    { l with
      purchases := purchases, offerings := offerings, fnfts := fnfts, whitelist := whitelist }
  return (after, [p.notice rest])

/-- **Funds were deposited for an offering.** -/
def attempt (verify : Bool) (o : Origin) (p : FundDeposit) (seen : Ledgers) : Attempt :=
  .check (p.settleable o seen) fun txHash =>
  .confirm verify o <|
  .commit (p.settle txHash)

end ChainLedger.FundDeposit
