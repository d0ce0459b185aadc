/-!
# Searching texts

What follows the first occurrence of a piece in a text, and whether there is
one. Letter case is ignored by lowering both sides first, which touches the
ASCII letters alone.
-/

namespace ChainLedger.Text

/-- What follows the first occurrence of a piece. -/
def after? (piece : List Char) : List Char → Option (List Char)
  | [] => if piece.isEmpty then some [] else none
  | c :: rest =>
    if piece.isPrefixOf (c :: rest) then some ((c :: rest).drop piece.length)
    else after? piece rest

/-- A piece occurs in a text. -/
def occurs (piece : String) (cs : List Char) : Bool :=
  (after? piece.toList cs).isSome

theorem isSome_after?_iff {piece cs : List Char} :
    (after? piece cs).isSome = true ↔ piece <:+: cs := by
  induction cs with
  | nil => cases piece <;> simp [after?]
  | cons c rest ih =>
    rw [after?, List.infix_cons_iff, ← List.isPrefixOf_iff_prefix, ← ih]
    split
    · next hstart => simp [hstart]
    · next hstart => simp [hstart]

/-- **A piece occurs** where a text is cut out of the text. -/
theorem occurs_iff {piece : String} {cs : List Char} :
    occurs piece cs = true ↔ piece.toList <:+: cs :=
  isSome_after?_iff

/-- A text with its ASCII letters in lower case. -/
def lower (cs : List Char) : List Char :=
  cs.map Char.toLower

end ChainLedger.Text
