/-!
# Texts as bytes

Hexadecimal text, packed messages and trimmed hashes are read byte by byte.
`Text.utf8` lists the bytes of a text in the UTF-8 encoding; for a text of
ASCII characters it is one byte for each of them.
-/

namespace ChainLedger

/-- A string of bytes. -/
abbrev Bytes := List UInt8

namespace Text

/-- The UTF-8 bytes of a list of characters. -/
def utf8Chars (cs : List Char) : Bytes :=
  cs.flatMap String.utf8EncodeChar

/-- The UTF-8 bytes of a text. -/
def utf8 (s : String) : Bytes :=
  utf8Chars s.toList

theorem utf8Chars_append (xs ys : List Char) :
    utf8Chars (xs ++ ys) = utf8Chars xs ++ utf8Chars ys := by
  simp [utf8Chars]

/-- The text that some bytes encode, if they encode one. -/
def ofUtf8? (bs : Bytes) : Option String :=
  String.fromUTF8? (ByteArray.mk bs.toArray)

end Text

end ChainLedger
