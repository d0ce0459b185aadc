import ChainLedger.Chain.ContractKind
import ChainLedger.Chain.Quantity
import ChainLedger.Text.Search
import ChainLedger.Text.Blank

/-!
# Errors of a chain

What may go wrong between a question to a chain and its answer, and the
wording of each. A transient failure is worth another try; a refusal by a
contract never is, whatever else its message says (`ChainError.ofRpc`).
-/

namespace ChainLedger

/-- The failures that are worth another try. -/
inductive TransientKind
  | connectionRefused
  | timeout
  | invalidResponse
  | reconnectLimit
deriving DecidableEq, Repr

/-- The wording of a transient failure. -/
def TransientKind.message : TransientKind → String
  | .connectionRefused => "connection refused"
  | .timeout => "rpc timeout"
  | .invalidResponse => "invalid JSON-RPC response"
  | .reconnectLimit => "reconnect limit exceeded"

/-- Why an answer of a node could not be decoded. -/
inductive DecodeFault
  /-- A field that is absent or of the wrong type. -/
  | missing (field : String)
  /-- A topic that is no text. -/
  | topicNotText
  /-- A text that is not the hexadecimal form of some bytes. -/
  | bytes (fault : Hex.Fault)
  /-- A text that is no number of 64 bits. -/
  | word (fault : Quantity.Fault)
  /-- A text that is no number of 256 bits. -/
  | long (fault : Quantity.Fault)
  /-- Some bytes that are no hash. -/
  | hashLength (length : Nat)
  /-- Some bytes that are no address. -/
  | addressLength (length : Nat)
  /-- A block number that is no text. -/
  | blockNumberNotText
  /-- A result of a call that is no text. -/
  | resultNotText
  /-- Logs that are no list. -/
  | logsNotList
  /-- A result that is not what the signature returns. -/
  | badResult (signature : String)
deriving DecidableEq, Repr

/-- The wording of a decoding fault. -/
def DecodeFault.message : DecodeFault → String
  | .missing f => "missing " ++ f
  | .topicNotText => "topic not str"
  | .bytes f => "hex bytes: " ++ f.sentence
  | .word f => "hex u64: " ++ f.wordMessage
  | .long f => "hex u256: " ++ f.longMessage
  | .hashLength n => "expected 32 bytes, got " ++ toString n
  | .addressLength n => "expected 20 or 32 bytes for address, got " ++ toString n
  | .blockNumberNotText => "blockNumber not string"
  | .resultNotText => "eth_call result not string"
  | .logsNotList => "getLogs not array"
  | .badResult s => s ++ ": <abi>"

/-- What the settings of a chain lack. -/
inductive SettingsFault
  | noUrls (chain : Nat)
  | noEndpoint (chain : Nat)
  | noContract (kind : ContractKind) (chain : Nat)
deriving DecidableEq, Repr

/-- The wording of a fault in the settings. -/
def SettingsFault.message : SettingsFault → String
  | .noUrls c => "no RPC urls configured for chain " ++ toString c
  | .noEndpoint c => "no endpoint configured for chain " ++ toString c
  | .noContract k c => "no " ++ k.name ++ " contract configured for chain " ++ toString c

/-- Why a chain gives no answer. -/
inductive ChainError
  /-- The chain is in no family that is served. -/
  | unsupported (chain : Nat)
  /-- The settings lack something. -/
  | settings (fault : SettingsFault)
  /-- No endpoint of the chain was found in step with it. -/
  | noHealthyEndpoint (chain attempts : Nat)
  /-- A failure that is worth another try. -/
  | transient (kind : TransientKind) (message : String)
  /-- The node answered with an error. -/
  | rpc (code : Int) (message : String)
  /-- A contract says that the token does not exist. -/
  | tokenNotExist (message : String)
  /-- A contract refused. -/
  | reverted (reason : String)
  /-- The answer could not be decoded. -/
  | decode (fault : DecodeFault)
  /-- A key cannot sign. -/
  | signing
deriving DecidableEq, Repr

namespace ChainError

/-- The wording of an error. -/
def message : ChainError → String
  | .unsupported c => "unsupported chain id " ++ toString c
  | .settings f => "configuration error: " ++ f.message
  | .noHealthyEndpoint c n =>
    "no healthy RPC endpoint for chain " ++ toString c ++ " after " ++ toString n ++ " attempts"
  | .transient k m => k.message ++ ": " ++ m
  | .rpc c m => "RPC error " ++ toString c ++ ": " ++ m
  | .tokenNotExist m => "token does not exist: " ++ m
  | .reverted r => "execution reverted: " ++ r
  | .decode f => "decode error: " ++ f.message
  | .signing => "signing error: signature error"

/-- The error is worth another try. -/
def isTransient : ChainError → Bool
  | .transient _ _ => true
  | _ => false

/-- What a contract gives as its reason: what follows the first
`execution reverted`, without colons in front and blanks around; the whole
message if nothing is left. -/
def revertReason (message : String) : String :=
  match Text.after? "execution reverted".toList message.toList with
  | none => message
  | some rest =>
    match Text.trimChars (rest.dropWhile (· = ':')) with
    | [] => message
    | reason => String.ofList reason

/-- **The error behind a code and a message of a node.** A contract's own
refusals are looked for first, so that no word elsewhere in the message
makes one of them transient. -/
def ofRpc (code : Int) (message : String) : ChainError :=
  let lower := Text.lower message.toList
  let tells (piece : String) := Text.occurs piece lower
  if tells "nonexistent token" || tells "token does not exist" || tells "invalid token id" then
    .tokenNotExist message
  else if tells "execution reverted" || code = 3 then .reverted (revertReason message)
  else if tells "timeout" || tells "timed out" then .transient .timeout message
  else if tells "reconnect" then .transient .reconnectLimit message
  else if tells "connection refused" || tells "econnrefused" then
    .transient .connectionRefused message
  else .rpc code message

end ChainError

end ChainLedger
