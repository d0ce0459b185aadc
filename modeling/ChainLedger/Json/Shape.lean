/-!
# What a text is read for

Text can be read for a value of any kind, or for a value of a known shape.
A shape matters in two places: the members of a record that are no fields of
it are passed over unread, and a list of bytes bears one thing after its
last byte that is no byte (`Json.Shape`).
-/

namespace ChainLedger.Json

/-- What a text is read for. -/
inductive Shape
  /-- A value of any kind. -/
  | value
  /-- A text, or a list of twenty bytes. -/
  | bytes
  /-- A list of items of one shape. -/
  | list (item : Shape)
  /-- An object of members of one shape under any keys. -/
  | map (member : Shape)
  /-- An object of fields, or the list of them in order. -/
  | record (fields : List (String × Shape))

namespace Shape

instance : Inhabited Shape := ⟨value⟩

/-- What the item at a position is read for. -/
def itemAt : Shape → Nat → Shape
  | list s, _ => s
  | record fields, i => ((fields[i]?).map (·.2)).getD value
  | _, _ => value

/-- What the member under a key is read for; nothing if it is not read. -/
def memberAt? : Shape → String → Option Shape
  | map s, _ => some s
  | record fields, k => (fields.find? (·.1 = k)).map (·.2)
  | _, _ => some value

/-- How many items a list takes before it bears a thing that is none. -/
def fill? : Shape → Option Nat
  | bytes => some 20
  | _ => none

end Shape

end ChainLedger.Json
