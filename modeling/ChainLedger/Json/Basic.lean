import ChainLedger.Binary64

/-!
# JSON values

A number is an integer of 64 bits, signed or unsigned, or a double; `1` and
`1.0` are two values. An object keeps its members in the order they were
written, repetitions included; `Json.canonical` puts every object of a value
into the order of its keys and lets the last of equal keys win, which is how
a value is held once it is not read field by field.
-/

namespace ChainLedger

-- A power is the one of the core library, whatever other structure is in scope.
attribute [local instance (2000)] instPowNat

namespace Json

/-- A JSON number: an integer of 64 bits, or a double. -/
inductive Number
  | int (n : Int)
  | double (x : Binary64)
deriving DecidableEq, Inhabited, Repr

end Json

/-- A JSON value. -/
inductive Json
  | null
  | bool (b : Bool)
  | num (n : Json.Number)
  | str (s : String)
  | arr (items : List Json)
  | obj (members : List (String × Json))
deriving Inhabited, Repr

namespace Json

/-- An integer. -/
def int (n : Int) : Json := .num (.int n)

/-- A count. -/
def nat (n : Nat) : Json := .num (.int n)

/-- A text, or nothing. -/
def optional {α : Type} (f : α → Json) : Option α → Json
  | none => .null
  | some a => f a

/-- Puts a member into a list ordered by key; an equal key is replaced. -/
def insertMember {α : Type} (k : String) (v : α) : List (String × α) → List (String × α)
  | [] => [(k, v)]
  | (k', v') :: rest =>
    if k < k' then (k, v) :: (k', v') :: rest
    else if k = k' then (k, v) :: rest
    else (k', v') :: insertMember k v rest

/-- Members in the order of their keys; of equal keys the last one wins. -/
def sortMembers {α : Type} (ms : List (String × α)) : List (String × α) :=
  ms.foldl (fun acc m => insertMember m.1 m.2 acc) []

mutual

/-- The same value with the members of every object in key order. -/
def canonical : Json → Json
  | .arr items => .arr (canonicalItems items)
  | .obj members => .obj (sortMembers (canonicalMembers members))
  | v => v

/-- The same items, each canonical. -/
def canonicalItems : List Json → List Json
  | [] => []
  | v :: rest => canonical v :: canonicalItems rest

/-- The same members, each with a canonical value. -/
def canonicalMembers : List (String × Json) → List (String × Json)
  | [] => []
  | (k, v) :: rest => (k, canonical v) :: canonicalMembers rest

end

mutual

/-- How deep arrays and objects nest: 0 for a value that is neither. -/
def depth : Json → Nat
  | .arr items => 1 + depthItems items
  | .obj members => 1 + depthMembers members
  | _ => 0

/-- How deep the deepest item nests. -/
def depthItems : List Json → Nat
  | [] => 0
  | v :: rest => max (depth v) (depthItems rest)

/-- How deep the deepest member nests. -/
def depthMembers : List (String × Json) → Nat
  | [] => 0
  | (_, v) :: rest => max (depth v) (depthMembers rest)

end

/-! ## Looking into a value -/

/-- The member of an object under a key; the last one if the key repeats. -/
def get? (v : Json) (key : String) : Option Json :=
  match v with
  | .obj members => (members.reverse.find? (·.1 = key)).map (·.2)
  | _ => none

/-- The text of a string. -/
def asText? : Json → Option String
  | .str s => some s
  | _ => none

/-- The items of an array. -/
def asItems? : Json → Option (List Json)
  | .arr items => some items
  | _ => none

/-- The value of a number that is a signed integer of 64 bits. -/
def asInt64? : Json → Option Int
  | .num (.int n) => if n < 2 ^ (63 : Nat) then some n else none
  | _ => none

/-- The value is `null`. -/
def isNull : Json → Bool
  | .null => true
  | _ => false

/-- The text under a key, if there is one. -/
def getText? (v : Json) (key : String) : Option String :=
  (v.get? key).bind asText?

end Json

end ChainLedger
