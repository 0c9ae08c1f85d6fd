import FirmScan.Numeral

/-!
# Addresses

Program addresses are 64-bit numbers whose arithmetic wraps; memory is read in 32-bit words.

**Spelling.** Reports print `0x` and at least eight upper-case digits. An address may be given as
hex with `0x` in front or `h` behind, or in decimal. Inline data accepts the two hex forms only
(`hexLiteral?`).
-/

namespace FirmScan

abbrev Address := UInt64

abbrev Word := UInt32

namespace Address

/-- The report spelling. -/
def text (a : Address) : String := Numeral.hex8 a.toNat

/-- The spelling in messages: upper-case hex without padding. -/
def shortText (a : Address) : String := "0x" ++ String.ofList (Numeral.upperHex a.toNat)

/-- The digits of a numeral that is marked as hex, by `0x` in front or else by `h` behind. -/
def hexDigits? (cs : List Char) : Option (List Char) :=
  (Text.after? ['0', 'x'] cs).or <| (Text.after? ['0', 'X'] cs).or <|
    (Text.before? ['h'] cs).or (Text.before? ['H'] cs)

/-- A numeral marked as hex, with blanks around it. -/
def hexLiteral? (cs : List Char) : Option Address :=
  (hexDigits? (Text.trim cs)).bind (Numeral.unsigned64? 16)

/-- An address in any of its spellings, with blanks around it. -/
def parse? (cs : List Char) : Option Address :=
  match hexDigits? (Text.trim cs) with
  | some ds => Numeral.unsigned64? 16 ds
  | none => Numeral.unsigned64? 10 (Text.trim cs)

end Address

/-- The report spelling of a word. -/
def Word.text (w : Word) : String := Numeral.hex8 w.toNat

end FirmScan
