import FirmScan.Text.Blank
import FirmScan.Text.Unprintable

/-!
# Quoted text in messages

A message quotes a text so that every character of it can be seen: the delimiter and the backslash
are escaped, the usual controls have their short escapes, and a character without a glyph is spelled
by its number, as in `\u{200b}`.
-/

namespace FirmScan.Text

/-- The spelling of a code point in lower-case hex, between braces. -/
def spellByNumber (c : Char) : List Char :=
  ['\\', 'u', '\x7b'] ++ Nat.toDigits 16 c.toNat ++ ['\x7d']

/-- One character inside quotes that are written with `delimiter`. -/
def escape (delimiter c : Char) : List Char :=
  if c = '\x00' then ['\\', '0']
  else if c = '\t' then ['\\', 't']
  else if c = '\r' then ['\\', 'r']
  else if c = '\n' then ['\\', 'n']
  else if c = '\\' || c = delimiter then ['\\', c]
  else if inRanges unprintableRanges c then spellByNumber c
  else [c]

/-- A text between quotes. -/
def quoted (s : String) : String :=
  String.ofList ('"' :: (s.toList.flatMap (escape '"') ++ ['"']))

/-- A character between single quotes. -/
def quotedChar (c : Char) : String :=
  String.ofList ('\x27' :: (escape '\x27' c ++ ['\x27']))

end FirmScan.Text
