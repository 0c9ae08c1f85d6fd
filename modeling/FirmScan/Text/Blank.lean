/-!
# Blank characters

A character is blank when Unicode gives it the property White_Space. Trimming and cutting text into
words go by this property, so a no-break space ends a word as a plain space does.
-/

namespace FirmScan.Text

/-- Whether one of the ranges, both ends included, holds the character. -/
def inRanges (ranges : List (Nat × Nat)) (c : Char) : Bool :=
  ranges.any fun r => r.1 ≤ c.toNat && c.toNat ≤ r.2

/-- The ranges of White_Space. -/
def blankRanges : List (Nat × Nat) :=
  [(0x09, 0x0D), (0x20, 0x20), (0x85, 0x85), (0xA0, 0xA0), (0x1680, 0x1680), (0x2000, 0x200A),
   (0x2028, 0x2029), (0x202F, 0x202F), (0x205F, 0x205F), (0x3000, 0x3000)]

def isBlank (c : Char) : Bool := inRanges blankRanges c

/-- The blanks that may follow the colon of a listing address: space, tab, line feed, form feed and
carriage return. The vertical tab is not among them. -/
def isAsciiBlank (c : Char) : Bool :=
  c = ' ' || c = '\t' || c = '\n' || c = '\x0c' || c = '\r'

def trimStart (cs : List Char) : List Char := cs.dropWhile isBlank

def trimEnd (cs : List Char) : List Char := (cs.reverse.dropWhile isBlank).reverse

/-- The text without the blanks around it. -/
def trim (cs : List Char) : List Char := trimEnd (trimStart cs)

/-- The text without any blank. -/
def removeBlanks (cs : List Char) : List Char := cs.filter fun c => !isBlank c

/-- The characters up to the first blank, and what follows them, trimmed. -/
def firstWord (cs : List Char) : List Char × List Char :=
  (cs.takeWhile fun c => !isBlank c, trim (cs.dropWhile fun c => !isBlank c))

/-- Case folding touches ASCII letters only. -/
def lower (cs : List Char) : List Char := cs.map Char.toLower

def upper (cs : List Char) : List Char := cs.map Char.toUpper

/-- What follows `start`, when the text starts with it. -/
def after? (start cs : List Char) : Option (List Char) :=
  if start.isPrefixOf cs then some (cs.drop start.length) else none

/-- What stands before `last`, when the text ends with it. -/
def before? (last cs : List Char) : Option (List Char) :=
  if last.isSuffixOf cs then some (cs.take (cs.length - last.length)) else none

/-- Whether `part` stands somewhere in the text. -/
def occurs (part : List Char) : List Char → Bool
  | [] => part.isEmpty
  | c :: cs => part.isPrefixOf (c :: cs) || occurs part cs

/-- The text up to the first character that satisfies `p`, and the text after it. -/
def cutAt? (p : Char → Bool) : List Char → Option (List Char × List Char)
  | [] => none
  | c :: cs => if p c then some ([], cs) else (cutAt? p cs).map fun r => (c :: r.1, r.2)

end FirmScan.Text
