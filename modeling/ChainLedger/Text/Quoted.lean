import ChainLedger.Text.Unseen

/-!
# Quoted texts

A report names a text by quoting it: between double quotes, with the quote
and the backslash escaped, the four common controls by letter, and every
character that would not show by its code point. A single character is
quoted the same way between single quotes. Main statement:
`quoted_printable`, a text of plain characters is quoted as itself.
-/

namespace ChainLedger.Text

/-- The hexadecimal digits of a number, lower case, without leading zeros. -/
def hexDigits (n : Nat) : List Char :=
  Nat.toDigits 16 n

/-- A code point in braces. -/
def byNumber (c : Char) : List Char :=
  '\\' :: 'u' :: '\x7b' :: (hexDigits c.toNat ++ ['\x7d'])

/-- **One character between quotes.** The quote in use and the backslash are
escaped, NUL, tab and the line ends are written by letter, and a character
that does not show is written by number. -/
def escapeChar (quote : Char) (c : Char) : List Char :=
  if c = quote ∨ c = '\\' then ['\\', c]
  else if c = '\x00' then ['\\', '0']
  else if c = '\t' then ['\\', 't']
  else if c = '\n' then ['\\', 'n']
  else if c = '\r' then ['\\', 'r']
  else if c.toNat < 0x20 ∨ c.toNat = 0x7F then byNumber c
  else if c.toNat < 0x7F then [c]
  else if isUnseen c then byNumber c
  else [c]

/-- A text between double quotes. -/
def quoted (s : String) : String :=
  String.ofList ('\x22' :: (s.toList.flatMap (escapeChar '\x22') ++ ['\x22']))

/-- A character between single quotes. -/
def quotedChar (c : Char) : String :=
  String.ofList ('\x27' :: (escapeChar '\x27' c ++ ['\x27']))

/-- Letters, digits and ordinary marks stand for themselves. -/
theorem escapeChar_plain {quote c : Char} (hq : c ≠ quote) (hb : c ≠ '\\')
    (hlow : 0x20 ≤ c.toNat) (hhigh : c.toNat < 0x7F) : escapeChar quote c = [c] := by
  have h0 : c ≠ '\x00' := by rintro rfl; exact absurd hlow (by decide)
  have ht : c ≠ '\t' := by rintro rfl; exact absurd hlow (by decide)
  have hn : c ≠ '\n' := by rintro rfl; exact absurd hlow (by decide)
  have hr : c ≠ '\r' := by rintro rfl; exact absurd hlow (by decide)
  have hctl : ¬ (c.toNat < 0x20 ∨ c.toNat = 0x7F) := by omega
  simp [escapeChar, hq, hb, h0, ht, hn, hr, hctl, hhigh]

/-- A text of plain characters is quoted as itself. -/
theorem quoted_printable (s : String)
    (h : ∀ c ∈ s.toList, c ≠ '\x22' ∧ c ≠ '\\' ∧ 0x20 ≤ c.toNat ∧ c.toNat < 0x7F) :
    (quoted s).toList = '\x22' :: (s.toList ++ ['\x22']) := by
  have hflat : s.toList.flatMap (escapeChar '\x22') = s.toList := by
    generalize s.toList = cs at h
    induction cs with
    | nil => rfl
    | cons c cs ih =>
      obtain ⟨hq, hb, hl, hh⟩ := h c (by simp)
      rw [List.flatMap_cons, escapeChar_plain hq hb hl hh,
        ih fun d hd => h d (by simp [hd])]
      rfl
  simp [quoted, hflat]

end ChainLedger.Text
