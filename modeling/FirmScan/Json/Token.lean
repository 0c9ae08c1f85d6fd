import FirmScan.Json
import FirmScan.Json.Quoted

/-!
# JSON tokens

A text is cut into tokens in one pass over its characters. Outside string literals a character is a
blank, a mark (bracket, brace, comma, colon), a quote, or part of a *lexeme*, a run of characters
that is judged as a whole once it ends: it must be a word (`true`, `false`, `null`) or a number. Two
neighbouring lexemes that no blank or mark divides never form a document, so nothing is lost by
leaving their order to the reader of the tokens.
-/

namespace FirmScan.Json

inductive Mark where
  | openArray | closeArray | openObject | closeObject | comma | colon

inductive Token where
  | mark (m : Mark)
  | scalar (v : Json)
  /-- A string literal; `none` when it denotes no text. -/
  | text (s : Option String)

def mark? (c : Char) : Option Mark :=
  [('[', Mark.openArray), (']', .closeArray), ('\x7b', .openObject), ('\x7d', .closeObject),
   (',', .comma), (':', .colon)].lookup c

/-- The blanks of the format: space, line feed, tab and carriage return. -/
def isSpace (c : Char) : Bool := c = ' ' || c = '\n' || c = '\t' || c = '\r'

/-- Digits without a leading zero, or the one digit zero. -/
def isInteger (cs : List Char) : Bool :=
  !cs.isEmpty && cs.all Char.isDigit && (cs.length = 1 || cs.head? != some '0')

/-- A fraction: empty, or a point and at least one digit. -/
def isFraction : List Char → Bool
  | [] => true
  | c :: cs => c = '.' && !cs.isEmpty && cs.all Char.isDigit

/-- An exponent: empty, or the letter, an optional sign and at least one digit. -/
def isExponent : List Char → Bool
  | [] => true
  | e :: cs =>
    let ds := match cs with
      | '+' :: ds => ds
      | '-' :: ds => ds
      | ds => ds
    (e = 'e' || e = 'E') && !ds.isEmpty && ds.all Char.isDigit

/-- The number grammar: an optional minus sign, an integer, a fraction, an exponent. -/
def isNumber (cs : List Char) : Bool :=
  let unsigned := match cs with
    | '-' :: rest => rest
    | rest => rest
  let tail := unsigned.dropWhile Char.isDigit
  isInteger (unsigned.takeWhile Char.isDigit)
    && isFraction (tail.takeWhile fun c => c != 'e' && c != 'E')
    && isExponent (tail.dropWhile fun c => c != 'e' && c != 'E')

/-- A word or a number. -/
def lexeme? (cs : List Char) : Option Json :=
  if cs = ['t', 'r', 'u', 'e'] then some (.bool true)
  else if cs = ['f', 'a', 'l', 's', 'e'] then some (.bool false)
  else if cs = ['n', 'u', 'l', 'l'] then some .null
  else if isInteger cs then (Numeral.natural? 10 cs).map .natural
  else if isNumber cs then some (.numeral cs)
  else none

/-- The token of a string literal, from the text between its quotes. -/
def textToken? (raw : List Char) : Option Token :=
  (pieces? raw).map fun ps => .text ((joinPieces? ps).map String.ofList)

/-- Where a scan stands: between tokens, in a lexeme, in a string literal, or behind a backslash in
one. What was seen of the token is kept in reverse. -/
inductive Scan where
  | gap
  | lexeme (seen : List Char)
  | text (seen : List Char)
  | escape (seen : List Char)

/-- The token that a scan outside string literals leaves behind, in front of later ones. -/
def Scan.close? : Scan → List Token → Option (List Token)
  | .gap, later => some later
  | .lexeme seen, later => (lexeme? seen.reverse).map fun v => .scalar v :: later
  | _, _ => none

/-- The tokens of a text. -/
def tokensFrom? : Scan → List Char → Option (List Token)
  | scan, [] => scan.close? []
  | .text seen, c :: cs =>
    if c = '"' then do
      let t ← textToken? seen.reverse
      let later ← tokensFrom? .gap cs
      return t :: later
    else if c = '\\' then tokensFrom? (.escape (c :: seen)) cs
    else tokensFrom? (.text (c :: seen)) cs
  | .escape seen, c :: cs => tokensFrom? (.text (c :: seen)) cs
  | scan, c :: cs =>
    if isSpace c then (tokensFrom? .gap cs).bind scan.close?
    else if c = '"' then (tokensFrom? (.text []) cs).bind scan.close?
    else match mark? c, scan with
      | some m, _ => (tokensFrom? .gap cs).bind fun later => scan.close? (.mark m :: later)
      | none, .lexeme seen => tokensFrom? (.lexeme (c :: seen)) cs
      | none, _ => tokensFrom? (.lexeme [c]) cs

def tokens? (cs : List Char) : Option (List Token) := tokensFrom? .gap cs

end FirmScan.Json
