import FirmScan.Address

/-!
# Lines of a listing

A line is an address, a colon and a blank, then an instruction or an inline datum, then perhaps a
comment behind a semicolon. A segment name may stand before the address, and a column of encoded
bytes may stand before the text.

**Address.** The first colon counts that a blank or the end of the line follows and whose text
before it, from its own last colon on, is a hex numeral.

**Data.** A line is a datum when its text is a numeral marked as hex, alone or behind a data
directive, or when it is nothing but a word of eight hex digits. Any other column of bytes that
stands alone has no value as a word, and the line is dropped.

**Instructions.** Everything else is an instruction: its first word in upper case, without a width
mark `.W` or `.N`, and the operands as they are written.
-/

namespace FirmScan

structure Instruction where
  address : Address
  mnemonic : List Char
  operands : List Char
  deriving DecidableEq, Repr

inductive Line where
  | instruction (i : Instruction)
  | data (address : Address) (value : UInt64)
  deriving DecidableEq, Repr

namespace Line

/-! ## The address -/

/-- The address in the text before a colon. -/
def addressIn? (cs : List Char) : Option Address :=
  let last := ((Text.trim cs).reverse.takeWhile (· ≠ ':')).reverse
  let digits := ((Text.after? ['0', 'x'] last).or (Text.after? ['0', 'X'] last)).getD last
  Numeral.unsigned64? 16 digits

/-- The address of a line and the text behind its colon; `seen` is what was read, in reverse. -/
def splitAddress? (seen : List Char) : List Char → Option (Address × List Char)
  | [] => none
  | c :: rest =>
    if c = ':' && rest.head?.all Text.isAsciiBlank then
      match addressIn? seen.reverse with
      | some a => some (a, rest)
      | none => splitAddress? (c :: seen) rest
    else splitAddress? (c :: seen) rest

/-! ## The text -/

/-- Encoded bytes: an even number of hex digits. -/
def isByteColumn (cs : List Char) : Bool :=
  2 ≤ cs.length && cs.length % 2 = 0 && cs.all Numeral.isHexDigit

/-- A word of eight hex digits. -/
def bareWord? (cs : List Char) : Option UInt64 :=
  if cs.length = 8 && cs.all Numeral.isHexDigit then Numeral.unsigned64? 16 cs else none

def dataDirectives : List (List Char) :=
  [".word", ".long", ".4byte", ".int", "dcd", "dcdu", "dd", "undefined4", "addr"].map String.toList

/-- The first word of the text and its operands, without a column of bytes before them. -/
def splitText (cs : List Char) : List Char × List Char :=
  let (head, tail) := Text.firstWord cs
  if isByteColumn head && !tail.isEmpty then Text.firstWord tail else (head, tail)

/-- A mnemonic in upper case, without its width mark. -/
def mnemonicOf (head : List Char) : List Char :=
  let word := Text.upper head
  ((Text.before? ['.', 'W'] word).or (Text.before? ['.', 'N'] word)).getD word

/-- The value of the datum that a first word and its operands spell. -/
def datum? (head tail : List Char) : Option UInt64 :=
  if tail.isEmpty then (Address.hexLiteral? head).or (bareWord? head)
  else if dataDirectives.contains (Text.lower head) && !tail.contains ',' then
    Address.hexLiteral? tail
  else none

/-- The line at an address with the given text. -/
def ofText? (address : Address) (text : List Char) : Option Line :=
  let (head, tail) := splitText text
  if head.isEmpty then none
  else match datum? head tail with
    | some value => some (.data address value)
    | none =>
      if tail.isEmpty && isByteColumn head then none
      else some (.instruction ⟨address, mnemonicOf head, tail⟩)

/-- Read a line; a line that has no address or no text is dropped. -/
def parse? (cs : List Char) : Option Line := do
  let (address, rest) ← splitAddress? [] cs
  ofText? address (Text.trim (rest.takeWhile (· ≠ ';')))

end Line

end FirmScan
