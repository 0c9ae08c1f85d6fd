import FirmScan.Address

/-!
# Operands

The operands of an instruction are divided by commas, except that a comma inside brackets or braces
divides nothing.

**Memory.** The second operand of a load or store is a literal (`=imm`), a place relative to the
program counter (`[PC, #off]`), a place relative to another register (`[Rb, #off]`), or something
that is not followed here.

**Immediates.** `#` and a signed number, in decimal or marked as hex. `scanImmediate?` finds one in
any text.
-/

namespace FirmScan

/-- The name of a register, in upper case. -/
abbrev Register := List Char

namespace Operand

/-- How much deeper a character leads into brackets. -/
def nesting (c : Char) : Int32 :=
  if c = '[' || c = '\x7b' then 1 else if c = ']' || c = '\x7d' then -1 else 0

/-- The pieces between the commas at depth 0; `seen` is what was read of the piece, in reverse. The
depth has 32 bits and wraps. -/
def pieces (depth : Int32) (seen : List Char) : List Char → List (List Char)
  | [] => [seen.reverse]
  | c :: rest =>
    if c = ',' && depth = 0 then seen.reverse :: pieces depth [] rest
    else pieces (depth + nesting c) (c :: seen) rest

/-- The operands in a text; a blank last one does not count. -/
def split (cs : List Char) : List (List Char) :=
  let parts := (pieces 0 [] cs).map Text.trim
  if parts.getLast? = some [] then parts.dropLast else parts

/-- The register that a text names; the mark `!` behind it is left out. -/
def register (cs : List Char) : Register :=
  Text.upper ((Text.trim cs).reverse.dropWhile (· = '!')).reverse

/-! ## Immediates -/

/-- A number behind the sign. It may carry a sign of its own. -/
def magnitude? (cs : List Char) : Option Int64 :=
  match (Text.after? ['0', 'x'] cs).or (Text.after? ['0', 'X'] cs), Text.before? ['h'] cs with
  | some ds, _ => Numeral.signed64? 16 ds
  | none, some ds => Numeral.signed64? 16 ds
  | none, none => Numeral.signed64? 10 cs

/-- An immediate, with or without `#`. A magnitude with a sign of its own may be -2^63. Its sign
change wraps and leaves it as it is, since overflow is not checked. -/
def immediate? (cs : List Char) : Option Int64 :=
  let t := Text.trim cs
  match Text.trim ((Text.after? ['#'] t).getD t) with
  | '-' :: rest => (magnitude? rest).map fun n => -n
  | rest => magnitude? rest

/-- An immediate that is marked by `#`. -/
def markedImmediate? (cs : List Char) : Option Int64 :=
  if (Text.trimStart cs).head? = some '#' then immediate? cs else none

/-- A hex number with `0x` in front, at the start of a text. -/
def hexAt? : List Char → Option UInt64
  | '0' :: x :: rest =>
    if x = 'x' || x = 'X' then Numeral.unsigned64? 16 (rest.takeWhile Numeral.isHexDigit) else none
  | _ => none

/-- The first hex number that follows `=` or `#` directly. -/
def scanImmediate? : List Char → Option UInt64
  | [] => none
  | c :: rest =>
    if c = '=' || c = '#' then (hexAt? rest).or (scanImmediate? rest) else scanImmediate? rest

end Operand

/-! ## Memory operands -/

inductive Operand where
  | literal (value : UInt64)
  | pcRelative (offset : Int64)
  | baseOffset (base : Register) (offset : Int64)
  | other
  deriving DecidableEq, Repr

namespace Operand

/-- The operand whose brackets hold the given text. -/
def ofBrackets (inner : List Char) : Operand :=
  match split inner with
  | [] => .other
  | base :: rest =>
    let offset? := match rest with
      | [] => some 0
      | offset :: _ => markedImmediate? offset
    match offset? with
    | none => .other
    | some offset =>
      if base.isEmpty then .other
      else if register base = ['P', 'C'] then .pcRelative offset
      else .baseOffset (register base) offset

def parse (cs : List Char) : Operand :=
  match Text.trim cs with
  | '=' :: rest =>
    match immediate? rest with
    | some v => .literal v.toUInt64
    | none => .other
  | '[' :: rest =>
    match Text.cutAt? (· = ']') rest with
    | some (inner, _) => ofBrackets inner
    | none => .other
  | _ => .other

end Operand

end FirmScan
