import ChainLedger.Codec.Basic

/-!
# Records

A record is read field by field, from an object or from a list of its fields
in order, and written as an object. A field may be absent if the record says
what stands for it then.

From an object the fields are read in the order they are given, the first
fault wins, unknown members are passed over, and only then are missing
fields looked for, in the order of the record. A field given twice is a
fault. From a list the fields are read in the order of the record, and a
list that goes on after them is a fault.
-/

namespace ChainLedger

namespace Codec

/-- The fields of a record of type `ρ`, read so far into an `α`. -/
structure Fields (ρ α : Type) where
  /-- The fields in order, by name, with what a text is read for that holds one. -/
  shapes : List (String × Json.Shape)
  /-- Reads a value under the name of one of the fields. -/
  check : String → Json → Except ReadError Unit
  /-- The fields from an object. -/
  ofMembers : (String → Option Json) → Except ReadError α
  /-- The fields from the front of a list, and the rest of it; the text says
  what a list that is too short should have been. -/
  ofItems : String → List Json → Except ReadError (α × List Json)
  /-- The fields of a record as members of an object. -/
  members : ρ → List (String × Json)

namespace Fields

/-- The names of the fields, in order. -/
def names {ρ α : Type} (fs : Fields ρ α) : List String := fs.shapes.map (·.1)

/-- No fields, before a constructor is given them. -/
def start {ρ α : Type} (make : α) : Fields ρ α where
  shapes := []
  check _ _ := .ok ()
  ofMembers _ := .ok make
  ofItems _ items := .ok (make, items)
  members _ := []

/-- What stands for an absent field, or the fault of its absence. -/
def orElse {α : Type} (absent : Option α) (e : ReadError) : Except ReadError α :=
  match absent with
  | some a => .ok a
  | none => .error e

/-- One more field; `absent` is what stands for it when it is not given. -/
def also {ρ α β : Type} (fs : Fields ρ (α → β)) (name : String) (c : Codec α) (get : ρ → α)
    (absent : Option α) : Fields ρ β where
  shapes := fs.shapes ++ [(name, c.shape)]
  check k v := if k = name then (c.read v).map (fun _ => ()) else fs.check k v
  ofMembers look := do
    let make ← fs.ofMembers look
    let a ← match look name with
      | some v => c.read v
      | none => orElse absent (.missing name)
    return make a
  ofItems expected items := do
    let (make, rest) ← fs.ofItems expected items
    match rest with
    | v :: rest => return (make (← c.read v), rest)
    | [] => return (make (← orElse absent (.wrongLength fs.names.length expected)), [])
  members r := fs.members r ++ [(name, c.write (get r))]

/-- A field that must be given. -/
def field {ρ α β : Type} (fs : Fields ρ (α → β)) (name : String) (c : Codec α) (get : ρ → α) :
    Fields ρ β :=
  fs.also name c get none

/-- A field that may be absent. -/
def fieldOr {ρ α β : Type} (fs : Fields ρ (α → β)) (name : String) (c : Codec α) (get : ρ → α)
    (absent : α) : Fields ρ β :=
  fs.also name c get (some absent)

/-- A field that may be absent or `null`. -/
def optional {ρ α β : Type} (fs : Fields ρ (Option α → β)) (name : String) (c : Codec α)
    (get : ρ → Option α) : Fields ρ β :=
  fs.also name c.option get (some none)

/-- Reads the members in the order they are given; `seen` are the names of
the fields before them. -/
def scan {ρ α : Type} (fs : Fields ρ α) (seen : List String) :
    List (String × Json) → Except ReadError Unit
  | [] => .ok ()
  | (k, v) :: rest =>
    if k ∈ fs.names then
      if k ∈ seen then .error (.repeated k)
      else do
        fs.check k v
        fs.scan (k :: seen) rest
    else fs.scan seen rest

end Fields

/-- The value under a key. -/
def lookup (ms : List (String × Json)) (k : String) : Option Json :=
  (ms.find? (·.1 = k)).map (·.2)

/-- A count of elements in words. -/
def elements (n : Nat) : String :=
  if n = 1 then "1 element" else toString n ++ " elements"

/-- **A record**, under the name that messages call it by. -/
def record {ρ : Type} (shape : String) (fs : Fields ρ ρ) : Codec ρ where
  read
    | .obj ms => do
      fs.scan [] ms
      fs.ofMembers (lookup ms)
    | .arr items => do
      let expected := "struct " ++ shape ++ " with " ++ elements fs.names.length
      let (r, rest) ← fs.ofItems expected items
      if rest.isEmpty then return r
      else throw (.wrongLength items.length "fewer elements in array")
    | v => .error (.wrongType v ("struct " ++ shape))
  write r := .obj (fs.members r)
  shape := .record fs.shapes

end Codec

end ChainLedger
