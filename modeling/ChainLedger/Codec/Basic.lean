import ChainLedger.Codec.ReadError
import ChainLedger.Json.Parser
import ChainLedger.Address
import ChainLedger.Decimal.Numeral
import ChainLedger.Instant.Timestamp

/-!
# Codecs

A `Codec` reads a value of some type from JSON and writes it back; of text
it also says what to read it for (`Codec.ofText?`). This file holds the
codecs of single values and of lists, options and maps of them;
`Codec.Record` builds those of documents. A decimal is read from a text or a
number and written as a text; an address is read from a text or from its
bytes and written in lower case; an instant is read and written as a
timestamp.
-/

namespace ChainLedger

-- A power is the one of the core library, whatever other structure is in scope.
attribute [local instance (2000)] instPowNat

/-- Reading a value of a type from JSON, and writing it. -/
structure Codec (α : Type) where
  read : Json → Except ReadError α
  write : α → Json
  /-- What a text is read for that holds such a value. -/
  shape : Json.Shape := .value

namespace Codec

/-- **A value from its text.** -/
def ofText? {α : Type} (c : Codec α) (text : String) : Option α :=
  (Json.parse? c.shape text).bind fun v => (c.read v).toOption

/-- A text. -/
def text : Codec String where
  read
    | .str s => .ok s
    | v => .error (.wrongType v "a string")
  write := .str

/-- A truth value. -/
def bool : Codec Bool where
  read
    | .bool b => .ok b
    | v => .error (.wrongType v "a boolean")
  write := .bool

/-- **A natural number of some bits.** A double is refused even if it stands
for an integer. -/
def word (bits : Nat) : Codec Nat where
  read
    | .num (.int n) =>
      if 0 ≤ n ∧ n < 2 ^ bits then .ok n.toNat
      else .error (.wrongValue (.num (.int n)) ("u" ++ toString bits))
    | v => .error (.wrongType v ("u" ++ toString bits))
  write n := .num (.int n)

/-! ## Decimals -/

/-- What a message says in place of a decimal. -/
def decimalShape : String := "a Decimal type representing a fixed-point number"

/-- A decimal from its text. -/
def readDecimalText (s : String) : Except ReadError Decimal :=
  match Decimal.ofText? s with
  | some d => .ok d
  | none => .error (.wrongValue (.str s) decimalShape)

/-- **A decimal as text and nothing else**, so that no digit is lost on the
way. -/
def exactDecimal : Codec Decimal where
  read
    | .str s => readDecimalText s
    | v => .error (.wrongType v decimalShape)
  write d := .str d.toText

/-- **A decimal as text or as a number.** An integer is taken exactly, a
double through the fewest digits that read back as it. -/
def decimal : Codec Decimal where
  read
    | .str s => readDecimalText s
    | .num (.int n) =>
      match Decimal.ofParts? n 0 with
      | some d => .ok d
      | none => .error (.wrongValue (.num (.int n)) decimalShape)
    | .num (.double x) =>
      match Decimal.ofText? x.plain with
      | some d => .ok d
      | none => .error (.wrongValue (.num (.double x)) decimalShape)
    | v => .error (.wrongType v decimalShape)
  write d := .str d.toText

/-! ## Addresses and instants -/

/-- What a message says in place of an address. -/
def addressShape : String :=
  "20 bytes, represented as a hex string of length 40, an array of u8, or raw bytes"

/-- What a message says of a list of bytes that is no address. -/
def addressLength : String := "exactly 20 bytes"

/-- The first `n` items as bytes, and the rest; `i` items were read. -/
def readBytes : Nat → Nat → List Json → Except ReadError (Bytes × List Json)
  | 0, _, items => .ok ([], items)
  | _ + 1, i, [] => .error (.wrongLength i addressLength)
  | n + 1, i, v :: rest => do
    let b ← (word 8).read v
    let (bs, rest) ← readBytes n (i + 1) rest
    return (UInt8.ofNat b :: bs, rest)

/-- **An address from a list**: 20 bytes and no further one. One more item
that is no byte is passed over, two are not. -/
def readAddressItems (items : List Json) : Except ReadError Address := do
  let (bs, rest) ← readBytes 20 0 items
  match rest with
  | [] => return Address.ofTail bs
  | v :: rest =>
    match (word 8).read v, rest with
    | .ok _, _ => throw (.wrongLength 21 addressLength)
    | .error _, [] => return Address.ofTail bs
    | .error _, _ :: _ => throw (.wrongLength items.length "fewer elements in array")

/-- An address as text of either case or as its bytes. -/
def address : Codec Address where
  read
    | .str s =>
      match Address.ofText? s with
      | .ok a => .ok a
      | .error e => .error (.badDigits e)
    | .arr items => readAddressItems items
    | v => .error (.wrongType v addressShape)
  write a := .str a.lower
  shape := .bytes

/-- What a message says in place of an instant. -/
def instantShape : String := "an RFC 3339 formatted date and time string"

/-- An instant as a timestamp. -/
def instant : Codec Instant where
  read
    | .str s =>
      match Instant.ofText? s with
      | some t => .ok t
      | none => .error (.wrongValue (.str s) instantShape)
    | v => .error (.wrongType v instantShape)
  write t := .str t.toText

/-! ## Fixed sets of names -/

/-- The value under a name. -/
def ofName {α : Type} (cases : List (String × α)) (name : String) : Except ReadError α :=
  match cases.find? (·.1 = name) with
  | some c => .ok c.2
  | none => .error (.unknownName name (cases.map (·.1)))

/-- **One of a fixed set of names**, as a text or as the only key of an
object with `null` under it. -/
def oneOf {α : Type} (cases : List (String × α)) (nameOf : α → String) : Codec α where
  read
    | .str s => ofName cases s
    | .obj [(k, v)] => do
      let a ← ofName cases k
      if v.isNull then return a else throw (.wrongType v "unit")
    | .obj ms => .error (.wrongValue (.obj ms) "map with a single key")
    | v => .error (.wrongType v "string or map")
  write a := .str (nameOf a)

/-! ## Options, lists and maps -/

/-- A value or `null`. -/
def option {α : Type} (c : Codec α) : Codec (Option α) where
  read
    | .null => .ok none
    | v => (c.read v).map some
  write := Json.optional c.write
  shape := c.shape

/-- Every item of a list. -/
def readAll {α : Type} (c : Codec α) : List Json → Except ReadError (List α)
  | [] => .ok []
  | v :: rest => do
    let a ← c.read v
    let as ← readAll c rest
    return a :: as

/-- A list. -/
def list {α : Type} (c : Codec α) : Codec (List α) where
  read
    | .arr items => readAll c items
    | v => .error (.wrongType v "a sequence")
  write as := .arr (as.map c.write)
  shape := .list c.shape

/-- Every member of an object, under a key that is read as well. -/
def readMembers {κ α : Type} (key : String → Except ReadError κ) (c : Codec α) :
    List (String × Json) → Except ReadError (List (κ × α))
  | [] => .ok []
  | (k, v) :: rest => do
    let k ← key k
    let a ← c.read v
    let as ← readMembers key c rest
    return (k, a) :: as

/-- Puts a member at the end of a map, in place of one under the same key. -/
def put {κ α : Type} [DecidableEq κ] (m : List (κ × α)) (k : κ) (a : α) : List (κ × α) :=
  m.filter (·.1 ≠ k) ++ [(k, a)]

/-- **A map**, as the list of its members; a later member stands for an
earlier one under the same key. -/
def mapOf {κ α : Type} [DecidableEq κ] (key : String → Except ReadError κ) (nameOf : κ → String)
    (c : Codec α) : Codec (List (κ × α)) where
  read
    | .obj ms => do
      let as ← readMembers key c ms
      return as.foldl (fun m p => put m p.1 p.2) []
    | v => .error (.wrongType v "a map")
  write as := .obj (as.map fun p => (nameOf p.1, c.write p.2))
  shape := .map c.shape

/-- Any value, held with its members in key order. -/
def json : Codec Json where
  read v := .ok v.canonical
  write v := v

end Codec

end ChainLedger
