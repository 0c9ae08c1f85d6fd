import FirmScan.Address
import FirmScan.Problem

/-!
# Name and comment patterns

A pattern is text with fields in braces. The field `slot` stands for the index of a slot and
`target` for the address that the slot leads to; a doubled brace stands for the brace itself.

**Formats.** A field may carry a format behind a colon: digits that give the least width, then `d`
for decimal, `x` for lower-case or `X` for upper-case hex, all of it optional. If the first digit is
zero the number is filled up with zeros, else with spaces. A width above 64 is refused. Without a
format the slot is written in decimal, the target in lower-case hex with eight digits at least.

**Faults.** A field that is unknown is reported by its name, one with a bad format by its whole
text, one that is not closed by what there is of it, and a closing brace that stands alone by
itself. The first fault from the left counts.
-/

namespace FirmScan.Template

inductive Digits where
  | decimal
  | lowerHex
  | upperHex
  deriving DecidableEq, Repr

def Digits.write : Digits → Nat → List Char
  | .decimal => Numeral.decimal
  | .lowerHex => Numeral.lowerHex
  | .upperHex => Numeral.upperHex

/-- How a field is written. -/
structure Format where
  digits : Digits
  zeroFill : Bool
  width : Nat
  deriving DecidableEq, Repr

def Format.write (f : Format) (n : Nat) : List Char :=
  (f.digits.write n).leftpad f.width (if f.zeroFill then '0' else ' ')

def maxWidth : Nat := 64

/-- The letter at the end of a format, and the width in front of it. -/
def splitFormat (cs : List Char) : List Char × Digits :=
  match cs.getLast? with
  | some 'x' => (cs.dropLast, .lowerHex)
  | some 'X' => (cs.dropLast, .upperHex)
  | some 'd' => (cs.dropLast, .decimal)
  | _ => (cs, .decimal)

/-- A least width: digits with a value up to `maxWidth`, or none for zero. -/
def width? (cs : List Char) : Option Nat :=
  if cs.isEmpty then some 0 else (Numeral.natural? 10 cs).filter (· ≤ maxWidth)

def format? (cs : List Char) : Option Format :=
  let (body, digits) := splitFormat cs
  (width? body).map fun width => ⟨digits, body.head? = some '0', width⟩

/-- The value of a field, and the format that it has by default. -/
def field? (slot : UInt32) (target : Address) (name : List Char) : Option (Nat × Format) :=
  if name = ['s', 'l', 'o', 't'] then some (slot.toNat, ⟨.decimal, true, 0⟩)
  else if name = ['t', 'a', 'r', 'g', 'e', 't'] then some (target.toNat, ⟨.lowerHex, true, 8⟩)
  else none

/-- The text that replaces a field, or the fault in the field. -/
def fieldText (slot : UInt32) (target : Address) (field : List Char) :
    Except (List Char) (List Char) :=
  let (name, spec) := match Text.cutAt? (· = ':') field with
    | some (name, spec) => (Text.trim name, some spec)
    | none => (Text.trim field, none)
  match field? slot target name with
  | none => .error name
  | some (value, default) =>
    match spec with
    | none => .ok (default.write value)
    | some spec =>
      match format? spec with
      | some format => .ok (format.write value)
      | none => .error field

mutual

/-- Fill in a pattern from outside its fields. -/
def fillText (slot : UInt32) (target : Address) : List Char → Except (List Char) (List Char)
  | [] => .ok []
  | '\x7b' :: '\x7b' :: rest => (fillText slot target rest).map ('\x7b' :: ·)
  | '\x7b' :: rest => fillField slot target [] rest
  | '\x7d' :: '\x7d' :: rest => (fillText slot target rest).map ('\x7d' :: ·)
  | '\x7d' :: _ => .error ['\x7d']
  | c :: rest => (fillText slot target rest).map (c :: ·)

/-- Fill in a pattern from inside a field, of which `seen` was read, in reverse. -/
def fillField (slot : UInt32) (target : Address) (seen : List Char) :
    List Char → Except (List Char) (List Char)
  | [] => .error seen.reverse
  | '\x7d' :: rest => do
    let text ← fieldText slot target seen.reverse
    let later ← fillText slot target rest
    return text ++ later
  | c :: rest => fillField slot target (c :: seen) rest

end

/-- Fill in a pattern for a slot and its target. -/
def fill (pattern : String) (slot : UInt32) (target : Address) : Except Problem String :=
  match fillText slot target pattern.toList with
  | .ok cs => .ok (String.ofList cs)
  | .error field => .error (.badField (String.ofList field))

end FirmScan.Template
