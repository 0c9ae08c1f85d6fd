import FirmScan.Access.Survey
import Mathlib.Algebra.Group.Nat.Defs
import Mathlib.Logic.Function.Basic

/-!
# Programs

A program is a list of items, each a word of data or an instruction of the few forms that a survey
follows, at an address. This file says how a program is printed and what it accesses, without any
text in between: `Program.survey` is the meaning that `Survey.ofListing` is to recover from the
printed lines.

**Registers.** A name is a run of ASCII letters and digits, in either case. Two names that differ in
case only are one register.

**Numbers.** A displacement is printed as `#0x` or `#-0x` and the digits of its magnitude, in either
case of the digits. What is computed with it is computed in the integers and then reduced modulo
2^64.

**Execution.** The data of the whole program is collected first. The instructions are then executed
in order: an instruction accesses what its registers hold before it, and assigns to a register
afterwards.
-/

namespace FirmScan

/-! ## Registers and numbers -/

structure RegisterName where
  chars : List Char
  ne_nil : chars ≠ []
  alphanumeric : ∀ c ∈ chars, c.isAlphanum

namespace RegisterName

/-- The register that a name denotes. -/
def key (r : RegisterName) : Register := Text.upper r.chars

end RegisterName

/-- The name of a register other than the program counter. -/
structure BaseName extends RegisterName where
  ne_pc : toRegisterName.key ≠ ['P', 'C']

/-- The case of hex digits. -/
inductive HexCase where
  | lower
  | upper
  deriving DecidableEq, Repr

def HexCase.digits : HexCase → Nat → List Char
  | .lower => Numeral.lowerHex
  | .upper => Numeral.upperHex

/-- A number in hex, marked as such. -/
def HexCase.numeral (h : HexCase) (n : Nat) : List Char := '0' :: 'x' :: h.digits n

/-- A signed number of less than 2^63, as it is written: zero may have either sign. -/
structure Displacement where
  negative : Bool
  magnitude : Nat
  fits : magnitude < 2 ^ 63

namespace Displacement

def value (d : Displacement) : Int := if d.negative then -(d.magnitude : Int) else d.magnitude

def text (h : HexCase) (d : Displacement) : List Char :=
  '#' :: ((if d.negative then ['-'] else []) ++ h.numeral d.magnitude)

/-- The address that a displacement from an unknown base is taken for: a large enough number without
a sign. -/
def absolute? (d : Displacement) : Option Address :=
  if d.negative = false ∧ 0x100 ≤ d.magnitude then some (UInt64.ofNat d.magnitude) else none

end Displacement

/-- The address at a distance from another one. -/
def displaced (a : Address) (n : Int) : Address := UInt64.ofInt (a.toNat + n)

/-! ## Items -/

inductive BitOp where
  | orr
  | and
  | bic
  | eor
  deriving DecidableEq, Repr

namespace BitOp

def mnemonic : BitOp → List Char
  | .orr => ['O', 'R', 'R']
  | .and => ['A', 'N', 'D']
  | .bic => ['B', 'I', 'C']
  | .eor => ['E', 'O', 'R']

def kind : BitOp → Access
  | .orr => .bitOr
  | .and => .bitAnd
  | .bic => .bitAnd
  | .eor => .bitXor

end BitOp

inductive Statement where
  /-- `.word v` -/
  | word (value : UInt64)
  /-- `LDR rd,=v` -/
  | loadLiteral (rd : RegisterName) (value : UInt64) (fits : value.toNat < 2 ^ 63)
  /-- `LDR rd,[PC,#off]` -/
  | loadPool (rd : RegisterName) (offset : Displacement)
  /-- `LDR rd,[rb,#off]` -/
  | load (rd : RegisterName) (rb : BaseName) (offset : Displacement)
  /-- `STR rd,[rb,#off]` -/
  | store (rd : RegisterName) (rb : BaseName) (offset : Displacement)
  /-- `ADD rd,rs,#imm` -/
  | addTo (rd rs : RegisterName) (immediate : Displacement)
  /-- `ADD rd,#imm` -/
  | add (rd : RegisterName) (immediate : Displacement)
  /-- `ORR rd,rn,#mask`, and likewise `AND`, `BIC`, `EOR` -/
  | bitwise (op : BitOp) (rd rn : RegisterName) (mask : UInt64)

structure Item where
  address : Address
  statement : Statement

/-! ## Printing -/

/-- A place relative to a register. -/
def bracketed (h : HexCase) (base : List Char) (offset : Displacement) : List Char :=
  '[' :: (base ++ ',' :: offset.text h) ++ [']']

namespace Statement

def mnemonic : Statement → List Char
  | .word _ => ['.', 'w', 'o', 'r', 'd']
  | .loadLiteral .. => ['L', 'D', 'R']
  | .loadPool .. => ['L', 'D', 'R']
  | .load .. => ['L', 'D', 'R']
  | .store .. => ['S', 'T', 'R']
  | .addTo .. => ['A', 'D', 'D']
  | .add .. => ['A', 'D', 'D']
  | .bitwise op .. => op.mnemonic

def operands (h : HexCase) : Statement → List (List Char)
  | .word v => [h.numeral v.toNat]
  | .loadLiteral rd v _ => [rd.chars, '=' :: h.numeral v.toNat]
  | .loadPool rd offset => [rd.chars, bracketed h ['P', 'C'] offset]
  | .load rd rb offset => [rd.chars, bracketed h rb.chars offset]
  | .store rd rb offset => [rd.chars, bracketed h rb.chars offset]
  | .addTo rd rs immediate => [rd.chars, rs.chars, immediate.text h]
  | .add rd immediate => [rd.chars, immediate.text h]
  | .bitwise _ rd rn mask => [rd.chars, rn.chars, '#' :: h.numeral mask.toNat]

/-- The operands with commas between them. -/
def operandText (h : HexCase) (s : Statement) : List Char := [','].intercalate (s.operands h)

end Statement

/-- The line of an item: its address with at least eight digits, a colon, and the statement. -/
def Item.text (h : HexCase) (i : Item) : String :=
  String.ofList ((Numeral.upperHex i.address.toNat).leftpad 8 '0' ++
    ':' :: ' ' :: (i.statement.mnemonic ++ ' ' :: i.statement.operandText h))

/-! ## Execution -/

namespace Program

/-- What registers are known to hold. -/
abbrev Bases := Register → Option Address

/-- Enter the datum of an item, if it is one, in the place of an earlier one. -/
def collect (pool : Pool) (i : Item) : Pool :=
  match i.statement with
  | .word v => Function.update pool i.address (some v)
  | _ => pool

/-- The data of a program; the last datum at an address counts. -/
def pool (items : List Item) : Pool := items.foldl collect fun _ => none

/-- The register that an item assigns to and the value that it gets, if it is known. -/
def assignment? (pool : Pool) (bases : Bases) (i : Item) : Option (Register × Address) :=
  match i.statement with
  | .loadLiteral rd v _ => some (rd.key, v)
  | .loadPool rd offset =>
    (pool (displaced i.address (8 + offset.value))).map fun v => (rd.key, v)
  | .load rd rb offset =>
    ((bases rb.key).bind fun a => pool (displaced a offset.value)).map fun v => (rd.key, v)
  | .addTo rd rs immediate => (bases rs.key).map fun a => (rd.key, displaced a immediate.value)
  | .add rd immediate => (bases rd.key).map fun a => (rd.key, displaced a immediate.value)
  | .word _ => none
  | .store .. => none
  | .bitwise .. => none

def assign (bases : Bases) : Option (Register × Address) → Bases
  | some (r, a) => Function.update bases r (some a)
  | none => bases

/-- The access that an item makes, with its target if that is known. -/
def access? (pool : Pool) (bases : Bases) (i : Item) : Option (Access × Option Address) :=
  match i.statement with
  | .loadLiteral _ v _ => some (.read, some v)
  | .loadPool _ offset => some (.read, pool (displaced i.address (8 + offset.value)))
  | .load _ rb offset =>
    some (.read, match bases rb.key with
      | some a =>
        let place := displaced a offset.value
        some ((pool place).getD place)
      | none => offset.absolute?)
  | .store _ rb offset =>
    some (.write, match bases rb.key with
      | some a => some (displaced a offset.value)
      | none => offset.absolute?)
  | .bitwise op _ _ mask => some (op.kind, some mask)
  | .word _ => none
  | .addTo .. => none
  | .add .. => none

/-- What has been found so far, and what the registers hold. -/
structure State where
  bases : Bases := fun _ => none
  found : Survey := ⟨[], 0, 0⟩

/-- Enter the access of an item at an address. -/
def enter (found : Survey) (address : Address) : Option (Access × Option Address) → Survey
  | some (kind, some target) =>
    { found with operations := found.operations ++ [⟨address, kind, target⟩] }
  | some (_, none) => { found with skipped := found.skipped + 1 }
  | none => found

/-- Count an item that is a datum. -/
def count (found : Survey) : Statement → Survey
  | .word _ => { found with dataLines := found.dataLines + 1 }
  | _ => found

/-- Execute an item. -/
def step (pool : Pool) (s : State) (i : Item) : State where
  bases := assign s.bases (assignment? pool s.bases i)
  found := count (enter s.found i.address (access? pool s.bases i)) i.statement

/-- What a program accesses. -/
def survey (items : List Item) : Survey := (items.foldl (step (pool items)) {}).found

end Program

end FirmScan
