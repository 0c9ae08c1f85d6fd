import FirmScan.Listing.Line
import FirmScan.Listing.Mnemonic
import FirmScan.Listing.Operand

/-!
# Registers that hold known addresses

While a listing is read from top to bottom, some registers are known to hold an address: one that a
load took from a literal or from inline data, or one that was computed from such an address by
adding an immediate. Nothing is ever forgotten; a later value takes the place of an earlier one.

`observe` carries the knowledge over an instruction, and `target?` tells with it where an
instruction reads or writes. Address arithmetic wraps at 2^64.
-/

namespace FirmScan

/-- The inline data of a listing, by address. -/
abbrev Pool := Address → Option UInt64

structure Registers where
  bases : List (Register × Address)
  deriving DecidableEq, Repr

namespace Registers

def empty : Registers := ⟨[]⟩

/-- What a register is known to hold. -/
def base? (r : Registers) (name : List Char) : Option Address :=
  r.bases.lookup (Operand.register name)

/-- Put a value in the place of the register's old one, or behind all others. -/
def put (name : Register) (a : Address) : List (Register × Address) → List (Register × Address)
  | [] => [(name, a)]
  | p :: rest => if p.1 = name then (name, a) :: rest else p :: put name a rest

def set (r : Registers) (name : Register) (a : Address) : Registers := ⟨put name a r.bases⟩

/-- The program counter runs this far ahead of the instruction. -/
def pcAhead : Address := 8

/-- What a load takes from a literal or from the pool beside the code. -/
def literal? (pool : Pool) (here : Address) : Operand → Option UInt64
  | .literal v => some v
  | .pcRelative offset => pool (here + pcAhead + offset.toUInt64)
  | _ => none

/-- What a load is known to put into its destination. -/
def loaded? (pool : Pool) (r : Registers) (here : Address) (source : Operand) : Option UInt64 :=
  (literal? pool here source).or <|
    match source with
    | .baseOffset base offset => (r.base? base).bind fun a => pool (a + offset.toUInt64)
    | _ => none

/-- Add an immediate to the source and put the sum into the destination. -/
def add (r : Registers) (destination source immediate : List Char) : Registers :=
  match r.base? source, Operand.markedImmediate? immediate with
  | some a, some n => r.set (Operand.register destination) (a + n.toUInt64)
  | _, _ => r

/-- What is known after an instruction. -/
def observe (pool : Pool) (r : Registers) (i : Instruction) : Registers :=
  let operands := Operand.split i.operands
  if Access.ofMnemonic? i.mnemonic = some .read then
    match operands with
    | destination :: source :: _ =>
      match loaded? pool r i.address (Operand.parse source) with
      | some v => r.set (Operand.register destination) v
      | none => r
    | _ => r
  else if Access.startsWith "ADD" i.mnemonic then
    match operands with
    | [destination, source, immediate] => r.add destination source immediate
    | [destination, immediate] => r.add destination destination immediate
    | _ => r
  else r

/-- An immediate below this is taken for an offset into a structure, not for an address. -/
def minAbsolute : UInt64 := 0x100

/-- An address that is written into the operands. -/
def absolute? (operands : List Char) : Option Address :=
  (Operand.scanImmediate? operands).filter (minAbsolute ≤ ·)

/-- Where an instruction reads or writes, or the mask that it applies. A bitwise operation without a
visible mask has mask 0; a load or store may have no known target. -/
def target? (pool : Pool) (r : Registers) (i : Instruction) (k : Access) : Option Address :=
  if !k.isMemory then some ((Operand.scanImmediate? i.operands).getD 0)
  else
    let operand := match Operand.split i.operands with
      | _ :: source :: _ => Operand.parse source
      | _ => .other
    let direct := if k = .read then literal? pool i.address operand else none
    direct.or <|
      match operand with
      | .baseOffset base offset =>
        match r.base? base with
        | some a =>
          let place := a + offset.toUInt64
          some (if k = .read then (pool place).getD place else place)
        | none => absolute? i.operands
      | .pcRelative _ => none
      | _ => absolute? i.operands

end Registers

end FirmScan
