import ChainLedger.Chain.Settings

/-!
# Settings

Everything that is configured: the chains, how events are applied, the
partner, and the exchange rates. Each part may be absent. The key of the
partner may be given apart from the settings and then takes their place.
-/

namespace ChainLedger

/-- How events are applied: whether receipts are looked up before money
moves, and how often an event is tried again after a conflict. -/
structure DispatchSettings where
  verifyReceipts : Bool := true
  maxConflictRetries : Nat := 3
deriving DecidableEq, Repr

/-- The partner; there is none if the base of its address is empty. -/
structure PartnerSettings where
  baseUrl : String := ""
  apiKey : String := ""
  timeoutSecs : Nat := 10
deriving DecidableEq, Repr

/-- All settings. -/
structure Settings where
  chains : ChainSettings := {}
  dispatch : DispatchSettings := {}
  partner : PartnerSettings := {}
  exchangeRates : List (String × Decimal) := []

namespace DispatchSettings

open Codec in
/-- How events are applied, as it is written. -/
def codec : Codec DispatchSettings :=
  record "DispatchSettings" <|
    (Fields.start mk).fieldOr "verify_receipts" bool verifyReceipts true
    |>.fieldOr "max_conflict_retries" (word 32) maxConflictRetries 3

end DispatchSettings

namespace PartnerSettings

open Codec in
/-- The partner, as it is written. -/
def codec : Codec PartnerSettings :=
  record "PartnerSettings" <| (Fields.start mk).fieldOr "base_url" text baseUrl ""
    |>.fieldOr "api_key" text apiKey ""
    |>.fieldOr "timeout_secs" (word 64) timeoutSecs 10

end PartnerSettings

namespace Settings

open Codec in
/-- Exchange rates, as they are written. -/
def ratesCodec : Codec (List (String × Decimal)) :=
  mapOf .ok id decimal

open Codec in
/-- All settings, as they are written. -/
def codec : Codec Settings :=
  record "Settings" <| (Fields.start mk).fieldOr "gateway" ChainSettings.codec chains {}
    |>.fieldOr "reconciler" DispatchSettings.codec dispatch {}
    |>.fieldOr "partner" PartnerSettings.codec partner {}
    |>.fieldOr "exchange_rates" ratesCodec exchangeRates []

/-- The settings with another key of the partner, if one is given. -/
def withPartnerKey (s : Settings) : Option String → Settings
  | some key => { s with partner := { s.partner with apiKey := key } }
  | none => s

/-- **Settings from their text**, with the key of the partner if it is given
apart from them. -/
def ofText? (text : String) (partnerKey : Option String) : Option Settings :=
  (codec.ofText? text).map (·.withPartnerKey partnerKey)

end Settings

end ChainLedger
