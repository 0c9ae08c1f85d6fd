import FirmScan.Address

/-!
# Words that are instructions

A jump table ends where code or padding begins. A word is a *sentinel* when it is an instruction
that stands at such a place: a return, a no-operation, or padding behind a return.
-/

namespace FirmScan

/-- The bytes of a word, lowest first. -/
def Word.bytes (w : Word) : List UInt8 :=
  [w.toUInt8, (w >>> 8).toUInt8, (w >>> 16).toUInt8, (w >>> 24).toUInt8]

namespace Sentinel

/-! ## ARM and Thumb -/

/-- Returns and no-operations that fill a word: `BX LR`, `MOV PC, LR`, `MOV R0, R0` and `NOP`. -/
def armWords : List Word := [0xE12FFF1E, 0xE1A0F00E, 0xE1A00000, 0xE320F000]

/-- Pairs of Thumb instructions, the low half first in memory: `BX LR` followed by `MOV R8, R8`, by
`NOP` or by another `BX LR`. -/
def thumbPairs : List Word := [0x46C04770, 0xBF004770, 0x47704770]

/-- A load of registers from the stack. -/
def isPop (w : Word) : Bool := w &&& 0xFFFF0000 = 0xE8BD0000

/-- A load from the stack that includes the program counter, which makes it a return. -/
def isPopReturn (w : Word) : Bool := isPop w && w &&& 0x8000 ≠ 0

def isArm (w : Word) : Bool := armWords.contains w || thumbPairs.contains w || isPopReturn w

/-! ## x86 -/

/-- The bytes that fill the space behind a function: `INT3` and `NOP`. -/
def isPadding (b : UInt8) : Bool := b = 0xCC || b = 0x90

/-- An epilogue and padding: `RET`, also behind `LEAVE` or `POP EBP`. -/
def isPaddedReturn : List UInt8 → Bool
  | 0xC9 :: 0xC3 :: rest => rest.all isPadding
  | 0x5D :: 0xC3 :: rest => rest.all isPadding
  | 0xC3 :: rest => rest.all isPadding
  | _ => false

def isX86 (w : Word) : Bool :=
  w.bytes.all (· = 0xCC) || w.bytes.all (· = 0x90) || isPaddedReturn w.bytes

end Sentinel

end FirmScan
