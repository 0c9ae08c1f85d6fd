import FirmScan.Disassembler
import FirmScan.Machine.Sentinel
import FirmScan.Text.Blank

/-!
# Machines

What an analysis has to know of a processor: which words are instructions rather than pointers, and
where the code lies that a pointer leads to.

**ARM with Thumb.** A pointer to ARM code is a multiple of the alignment. An odd pointer leads to
Thumb code, one byte below. Under the alignment four, a pointer that is 2 modulo 4 leads nowhere.

**x86.** Every pointer leads to the address that it holds.

**Any other.** Nothing is known of the instructions, so no pointer leads anywhere.

A machine's alignment is never zero. What is asked of a machine with alignment zero is the matter of
`MachineRequest`.
-/

namespace FirmScan

universe u

/-! ## Architectures -/

inductive Architecture where
  | armThumb
  | x86
  | unknown
  deriving DecidableEq, Repr

namespace Architecture

/-- Names are compared without blanks around them and without regard to case. A name that is not
listed is that of an unknown architecture. -/
def ofName (name : String) : Architecture :=
  let key := String.ofList (Text.lower (Text.trim name.toList))
  if ["arm", "thumb", "armv7", "arm32", "armv4t", "armv5", "armv6", "cortex-m",
      "arm_thumb"].contains key then .armThumb
  else if ["x86", "x86_64", "x86-64", "i386", "i686", "amd64"].contains key then .x86
  else .unknown

/-- The name to show to people. -/
def title : Architecture → String
  | .armThumb => "ARM/Thumb"
  | .x86 => "x86"
  | .unknown => "unknown"

/-- The name to type. -/
def name : Architecture → String
  | .armThumb => "arm"
  | .x86 => "x86"
  | .unknown => "unknown"

/-- The name in documents. -/
def tag : Architecture → String
  | .armThumb => "arm_thumb"
  | .x86 => "x86"
  | .unknown => "unknown"

end Architecture

/-! ## Entries -/

/-- The instruction set at an entry point. -/
inductive Mode where
  | arm
  | thumb
  | x86
  deriving DecidableEq, Repr

def Mode.name : Mode → String
  | .arm => "ARM"
  | .thumb => "Thumb"
  | .x86 => "x86"

/-- A place that a pointer may lead to. -/
structure Entry where
  mode : Mode
  address : Address
  deriving DecidableEq, Repr

/-! ## Machines -/

/-- What a machine can check of a pointer. -/
inductive Check where
  | range
  | sentinel
  | probe
  deriving DecidableEq, Repr

def Check.name : Check → String
  | .range => "RANGE"
  | .sentinel => "SENTINEL"
  | .probe => "PROBE"

inductive Machine where
  | armThumb (alignment : UInt64) (alignment_ne_zero : alignment ≠ 0)
  | x86
  | generic
  deriving DecidableEq

namespace Machine

/-- ARM code in words of four bytes. -/
def arm : Machine := .armThumb 4 (by decide)

def ofArchitecture : Architecture → Machine
  | .armThumb => arm
  | .x86 => .x86
  | .unknown => .generic

def ofName (name : String) : Machine := ofArchitecture (.ofName name)

def name : Machine → String
  | .armThumb .. => "arm-thumb"
  | .x86 => "x86"
  | .generic => "fallback"

def checks : Machine → List Check
  | .armThumb .. => [.range, .sentinel, .probe]
  | .x86 => [.range, .sentinel, .probe]
  | .generic => [.range]

/-- Whether a word is an instruction rather than a pointer. -/
def isInstruction : Machine → Word → Bool
  | .armThumb .., w => Sentinel.isArm w
  | .x86, w => Sentinel.isX86 w
  | .generic, _ => false

/-- The entries that a pointer may stand for, the preferred one first. -/
def entries : Machine → Address → List Entry
  | .armThumb alignment _, p =>
    (if p % alignment = 0 then [⟨.arm, p⟩] else [])
      ++ (if p &&& 1 = 1 then [⟨.thumb, p - 1⟩] else [])
  | .x86, p => [⟨.x86, p⟩]
  | .generic, _ => []

/-- The first entry of a pointer at which the disassembler knows a function to start. -/
def probe? {σ : Type u} [Disassembler σ] (m : Machine) (s : σ) (p : Address) : Option Entry :=
  (m.entries p).find? fun e => Disassembler.startsFunction s e.address

end Machine

end FirmScan
