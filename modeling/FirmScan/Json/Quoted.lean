import FirmScan.Numeral

/-!
# JSON string literals

**Writing.** The quote, the backslash and the control characters are escaped; every other character
stands for itself.

**Reading.** The text between the quotes is first cut into `Piece`s, one for each character or
escape; this fails on a control character and on an unknown escape. The pieces are then joined.
Joining fails where a `\u` escape spells half of a surrogate pair and the other half does not
follow: such a literal is well formed and yet denotes no text.
-/

namespace FirmScan.Json

/-- One character inside a string literal. -/
def escape (c : Char) : List Char :=
  if c = '"' then ['\\', '"']
  else if c = '\\' then ['\\', '\\']
  else if c = '\x08' then ['\\', 'b']
  else if c = '\x0c' then ['\\', 'f']
  else if c = '\n' then ['\\', 'n']
  else if c = '\r' then ['\\', 'r']
  else if c = '\t' then ['\\', 't']
  else if c.toNat < 0x20 then ['\\', 'u'] ++ (Numeral.lowerHex c.toNat).leftpad 4 '0'
  else [c]

/-- A string literal. -/
def quote (s : String) : String :=
  String.ofList ('"' :: (s.toList.flatMap escape ++ ['"']))

/-- A character of a string literal, or a UTF-16 unit that is spelled by number. -/
inductive Piece where
  | char (c : Char)
  | unit (n : Nat)

/-- The character that a backslash and a letter stand for. -/
def shortEscape? (c : Char) : Option Char :=
  [('"', '"'), ('\\', '\\'), ('/', '/'), ('b', '\x08'), ('f', '\x0c'), ('n', '\n'), ('r', '\r'),
   ('t', '\t')].lookup c

/-- The pieces of the text between the quotes. -/
def pieces? : List Char → Option (List Piece)
  | [] => some []
  | '\\' :: 'u' :: a :: b :: c :: d :: rest => do
    let n ← Numeral.natural? 16 [a, b, c, d]
    let ps ← pieces? rest
    return .unit n :: ps
  | '\\' :: e :: rest => do
    let c ← shortEscape? e
    let ps ← pieces? rest
    return .char c :: ps
  | c :: rest =>
    if c = '\\' || c.toNat < 0x20 then none else (pieces? rest).map (.char c :: ·)

def isHighSurrogate (n : Nat) : Bool := 0xD800 ≤ n && n < 0xDC00

def isLowSurrogate (n : Nat) : Bool := 0xDC00 ≤ n && n < 0xE000

/-- The text that the pieces spell; a high surrogate takes the low one that follows it. -/
def joinPieces? : List Piece → Option (List Char)
  | [] => some []
  | .char c :: rest => (joinPieces? rest).map (c :: ·)
  | .unit n :: .unit m :: rest =>
    if isHighSurrogate n then
      if isLowSurrogate m then
        (joinPieces? rest).map (Char.ofNat (0x10000 + (n - 0xD800) * 0x400 + (m - 0xDC00)) :: ·)
      else none
    else if isLowSurrogate n then none
    else (joinPieces? (.unit m :: rest)).map (Char.ofNat n :: ·)
  | .unit n :: rest =>
    if isHighSurrogate n || isLowSurrogate n then none
    else (joinPieces? rest).map (Char.ofNat n :: ·)

end FirmScan.Json
