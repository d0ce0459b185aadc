import ChainLedger.Json.Shape
import ChainLedger.Json.Unread

/-!
# Reading JSON text

`Json.parse?` reads one value with nothing but blanks around it, for what a
shape asks of it. The value keeps the order of its members and their
repetitions, and what is read of it may nest at most 127 deep.
`Json.parseValue?` reads text that is held as a value rather than field by
field, so that it is canonical.
-/

namespace ChainLedger.Json

/-- The text goes on after the end of an array. -/
def afterBracket (cs : List Char) : Option (List Char) :=
  match skipSpace cs with
  | ']' :: r => some r
  | _ => none

/-- **What follows a list of bytes that has its fill.** A comma may stand
before the end, and after it one thing that is no byte, as far as it can be
read. -/
def afterFill (n : Nat) (cs : List Char) : Option (List Char) :=
  match skipSpace cs with
  | ']' :: r => some r
  | ',' :: r =>
    match skipSpace r with
    | ']' :: r => some r
    | r =>
      match scalar n r with
      | .ok (.num (.int k), rest) => if 0 ≤ k ∧ k < 256 then none else afterBracket rest
      | .ok (_, rest) => afterBracket rest
      | .error rest => afterBracket rest
  | _ => none

mutual

/-- A value at the front of the text, and what follows it. The first
argument bounds the work and is never reached when it is twice the length of
the text and more. -/
def value : Nat → Shape → List Char → Option (Json × List Char)
  | 0, _, _ => none
  | n + 1, shape, cs =>
    match skipSpace cs with
    | '\x7b' :: r =>
      match skipSpace r with
      | '\x7d' :: r => some (.obj [], r)
      | r => members n shape [] r
    | '[' :: r =>
      match skipSpace r with
      | ']' :: r => some (.arr [], r)
      | r => items n shape 0 [] r
    | r => (scalar n r).toOption

/-- The items of an array from the one at position `i` up to its closing
bracket; `acc` holds those before it, last first. -/
def items : Nat → Shape → Nat → List Json → List Char → Option (Json × List Char)
  | 0, _, _, _, _ => none
  | n + 1, shape, i, acc, cs =>
    match value n (shape.itemAt i) cs with
    | none => none
    | some (v, r) =>
      if shape.fill? = some (i + 1) then
        (afterFill n r).map fun r => (.arr (v :: acc).reverse, r)
      else
        match skipSpace r with
        | ',' :: r => items n shape (i + 1) (v :: acc) r
        | ']' :: r => some (.arr (v :: acc).reverse, r)
        | _ => none

/-- The members of an object up to its closing brace, without those that the
shape does not ask for. -/
def members : Nat → Shape → List (String × Json) → List Char → Option (Json × List Char)
  | 0, _, _, _ => none
  | n + 1, shape, acc, cs =>
    match skipSpace cs with
    | '\x22' :: r =>
      match stringBody n [] r with
      | .error _ => none
      | .ok (k, r) =>
        match skipSpace r with
        | ':' :: r =>
          let member := match shape.memberAt? k with
            | some s => (value n s r).map fun p => ((k, p.1) :: acc, p.2)
            | none => (passValue n r).map (acc, ·)
          match member with
          | none => none
          | some (acc, r) =>
            match skipSpace r with
            | ',' :: r => members n shape acc r
            | '\x7d' :: r => some (.obj acc.reverse, r)
            | _ => none
        | _ => none
    | _ => none

end

/-- How deep a text may nest, without what is passed over. -/
def depthLimit : Nat := 127

/-- **One value of a shape** with nothing but blanks around it. -/
def parse? (shape : Shape) (text : String) : Option Json :=
  let cs := text.toList
  match value (2 * cs.length + 2) shape cs with
  | some (v, rest) => if skipSpace rest = [] ∧ v.depth ≤ depthLimit then some v else none
  | none => none

/-- A text that is held as a value is canonical. -/
def parseValue? (text : String) : Option Json :=
  (parse? .value text).map canonical

end ChainLedger.Json
