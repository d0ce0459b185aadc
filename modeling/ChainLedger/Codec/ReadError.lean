import ChainLedger.Json.Printer

/-!
# Why a value could not be read

A `ReadError` says what was found in place of what; `ReadError.message` is
its wording, as it stands in the report of a malformed event. What was found
is named by its kind and, where it is short, by itself (`Json.foundText`).
-/

namespace ChainLedger

/-- A value as a message names it. -/
def Json.foundText : Json → String
  | .null => "null"
  | .bool true => "boolean `true`"
  | .bool false => "boolean `false`"
  | .num (.int n) => "integer `" ++ toString n ++ "`"
  | .num (.double x) => "floating point `" ++ x.compact ++ "`"
  | .str s => "string " ++ Text.quoted s
  | .arr _ => "sequence"
  | .obj _ => "map"

/-- Why a value could not be read. -/
inductive ReadError
  /-- A value of another kind. -/
  | wrongType (found : Json) (expected : String)
  /-- A value of the right kind that is out of range. -/
  | wrongValue (found : Json) (expected : String)
  /-- A list that ends too early or goes on for too long. -/
  | wrongLength (length : Nat) (expected : String)
  /-- A name that is none of a fixed set. -/
  | unknownName (name : String) (names : List String)
  /-- A required field that is absent. -/
  | missing (field : String)
  /-- A field that is given twice. -/
  | repeated (field : String)
  /-- A text that is not the hexadecimal form of some bytes. -/
  | badDigits (fault : Hex.Fault)

/-- A name in the marks that messages put around names. -/
def ReadError.mark (s : String) : String := "`" ++ s ++ "`"

/-- The wording of a reading error. -/
def ReadError.message : ReadError → String
  | .wrongType v e => "invalid type: " ++ v.foundText ++ ", expected " ++ e
  | .wrongValue v e => "invalid value: " ++ v.foundText ++ ", expected " ++ e
  | .wrongLength n e => "invalid length " ++ toString n ++ ", expected " ++ e
  | .unknownName v names =>
    "unknown variant " ++ mark v ++ ", expected one of " ++ ", ".intercalate (names.map mark)
  | .missing f => "missing field " ++ mark f
  | .repeated f => "duplicate field " ++ mark f
  | .badDigits f => f.message

end ChainLedger
