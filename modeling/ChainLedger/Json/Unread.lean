import ChainLedger.Json.Token

/-!
# Values that are passed over

A member that nobody asks for is not read, only passed over
(`Json.passValue`): its text must be well formed, but a number may be beyond
all doubles, and a text, also one that is a key, may hold half of a pair of
code units.
-/

namespace ChainLedger.Json

/-- The four bytes of a code unit are digits. -/
def passUnit (cs : List Char) : Option (List Char) :=
  (codeUnit cs).toOption.map (·.2)

/-- What follows a text, from after its opening quote. -/
def passText : Nat → List Char → Option (List Char)
  | 0, _ => none
  | n + 1, cs =>
    match cs with
    | '\x22' :: rest => some rest
    | '\\' :: 'u' :: rest => (passUnit rest).bind (passText n)
    | '\\' :: e :: rest => if (escapedLetter e).isSome then passText n rest else none
    | c :: rest => if c.toNat < 0x20 then none else passText n rest
    | [] => none

/-- What follows an exponent, if there is one. -/
def passExponent (cs : List Char) : Option (List Char) :=
  match cs with
  | [] => some []
  | e :: r =>
    if e = 'e' ∨ e = 'E' then
      let r := (exponentSign r).2
      if startsWithDigit r then some (r.dropWhile Char.isDigit) else none
    else some cs

/-- What follows a number after its sign. -/
def passUnsigned (cs : List Char) : Option (List Char) :=
  match cs with
  | [] => none
  | c :: r =>
    if ¬ c.isDigit ∨ (c = '0' ∧ startsWithDigit r) then none
    else
      match cs.dropWhile Char.isDigit with
      | '.' :: r => if startsWithDigit r then passExponent (r.dropWhile Char.isDigit) else none
      | r => passExponent r

mutual

/-- **What follows a value.** The first argument bounds the work and is never
reached when it is twice the length of the text and more. -/
def passValue : Nat → List Char → Option (List Char)
  | 0, _ => none
  | n + 1, cs =>
    match skipSpace cs with
    | '\x7b' :: r =>
      match skipSpace r with
      | '\x7d' :: r => some r
      | r => passMembers n r
    | '[' :: r =>
      match skipSpace r with
      | ']' :: r => some r
      | r => passItems n r
    | '\x22' :: r => passText n r
    | 't' :: r => (literal ['r', 'u', 'e'] r).toOption
    | 'f' :: r => (literal ['a', 'l', 's', 'e'] r).toOption
    | 'n' :: r => (literal ['u', 'l', 'l'] r).toOption
    | '-' :: r => passUnsigned r
    | r => passUnsigned r

/-- What follows the items of an array and its closing bracket. -/
def passItems : Nat → List Char → Option (List Char)
  | 0, _ => none
  | n + 1, cs =>
    match passValue n cs with
    | none => none
    | some r =>
      match skipSpace r with
      | ',' :: r => passItems n r
      | ']' :: r => some r
      | _ => none

/-- What follows the members of an object and its closing brace. -/
def passMembers : Nat → List Char → Option (List Char)
  | 0, _ => none
  | n + 1, cs =>
    match skipSpace cs with
    | '\x22' :: r =>
      match (passText n r).map skipSpace with
      | some (':' :: r) =>
        match passValue n r with
        | none => none
        | some r =>
          match skipSpace r with
          | ',' :: r => passMembers n r
          | '\x7d' :: r => some r
          | _ => none
      | _ => none
    | _ => none

end

end ChainLedger.Json
