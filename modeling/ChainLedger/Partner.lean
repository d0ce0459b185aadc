import ChainLedger.Effect
import ChainLedger.Http
import ChainLedger.Settings

/-!
# Messages to the partner

The partner is told of fractional tokens to list and of fees, each as an
object posted below the base of its address. A message is taken if the answer
has a status of success; its body is not looked at. Without a base there is no
partner, and nothing is taken.
-/

namespace ChainLedger.Partner

/-- A message: where it goes below the base, and what it holds. -/
structure Message where
  path : String
  body : Json

/-- **The message that an effect asks for**, if it is for the partner. -/
def message? : Effect → Option Message
  | .listCoin id token chain supply => some ⟨"coins", .obj
      [("fnftId", .str id), ("tokenAddress", .str token.lower), ("chainId", .nat chain),
        ("totalSupply", .str supply.toText)]⟩
  | .notifyFee id fee currency => some ⟨"fees", .obj
      [("offeringId", .str id), ("platformFee", .str fee.toText),
        ("currency", .str currency.lower)]⟩
  | .emit .. => none
  | .email .. => none

/-- There is a message for just the effects that are for the partner. -/
theorem isSome_message? (e : Effect) : (message? e).isSome = e.isForPartner := by
  cases e <;> rfl

/-- A base without the slashes at its end. -/
def trimmedBase (base : String) : String :=
  String.ofList (base.toList.reverse.dropWhile (· = '/')).reverse

/-- Where a message is posted. -/
def Message.url (m : Message) (s : PartnerSettings) : String :=
  trimmedBase s.baseUrl ++ "/" ++ m.path

/-- Why a message was not taken. -/
inductive Fault
  /-- The request failed on its way. -/
  | unreachable (detail : String)
  /-- The partner refused it. -/
  | rejected (status : Nat)
  /-- There is no partner to list a token. -/
  | noListing (fnftId : String)
  /-- There is no partner to tell of a fee. -/
  | noFee (offeringId : String)
deriving DecidableEq, Repr

/-- The wording of a fault. -/
def Fault.message : Fault → String
  | .unreachable detail => "HTTP request failed: " ++ detail
  | .rejected status => "partner API rejected request: " ++ toString status
  | .noListing id => "partner API disabled; not listing " ++ id
  | .noFee id => "partner API disabled; fee for " ++ id ++ " not sent"

/-- **What became of a posted message.** -/
def ofEnd : HttpEnd → Except Fault Unit
  | .refused detail => .error (.unreachable detail)
  | .timedOut detail => .error (.unreachable detail)
  | .brokenOff detail => .error (.unreachable detail)
  | .failed detail => .error (.unreachable detail)
  | .answered status _ => if HttpEnd.isSuccess status then .ok () else .error (.rejected status)

/-- What becomes of an effect where there is no partner. -/
def withoutPartner : Effect → Except Fault Unit
  | .listCoin id _ _ _ => .error (.noListing id)
  | .notifyFee id _ _ => .error (.noFee id)
  | .emit .. => .ok ()
  | .email .. => .ok ()

end ChainLedger.Partner
