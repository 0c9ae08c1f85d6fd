import FirmScan.JumpTable.Label
import FirmScan.JumpTable.Scan

/-!
# Machines on request

The alignment of ARM code may be asked for. An alignment of zero makes no machine: whether a pointer
is a multiple of it cannot be computed. The tests before that question still work, so a request with
alignment zero is answered as long as no pointer gets past them, and fails when one does.
-/

namespace FirmScan

universe u

inductive MachineRequest where
  | machine (m : Machine)
  | zeroAlignment
  deriving DecidableEq

/-- A pointer was to be divided by zero. -/
inductive AlignmentFault where
  | zeroDivisor
  deriving DecidableEq, Repr

def AlignmentFault.message : AlignmentFault → String
  | .zeroDivisor => "attempt to calculate the remainder with a divisor of zero"

namespace MachineRequest

/-- ARM code with the given alignment. -/
def armThumb (alignment : UInt64) : MachineRequest :=
  if h : alignment = 0 then .zeroAlignment else .machine (.armThumb alignment h)

def isInstruction : MachineRequest → Word → Bool
  | .machine m => m.isInstruction
  | .zeroAlignment => Sentinel.isArm

def entries : MachineRequest → Address → Except AlignmentFault (List Entry)
  | .machine m, p => .ok (m.entries p)
  | .zeroAlignment, _ => .error .zeroDivisor

variable {σ : Type u} [Disassembler σ]

def probe? (s : σ) : MachineRequest → Address → Except AlignmentFault (Option Entry)
  | .machine m, p => .ok (m.probe? s p)
  | .zeroAlignment, _ => .error .zeroDivisor

/-- Check one slot. -/
def check (s : σ) (t : JumpTable) (slot : UInt32) :
    MachineRequest → Except AlignmentFault SlotReport
  | .machine m => .ok (t.check s m slot)
  | .zeroAlignment =>
    match t.screen s Sentinel.isArm slot with
    | .error r => .ok r
    | .ok _ => .error .zeroDivisor

/-- Check the slots of a run. -/
def scan (s : σ) (t : JumpTable) (start count : UInt32) (q : MachineRequest) :
    Except AlignmentFault ScanReport :=
  let count := JumpTable.clamp start count
  ((JumpTable.slots start count).mapM fun slot => q.check s t slot).map
    (JumpTable.tally start count)

/-- Check a slot and label its target. -/
def label (s : σ) (t : JumpTable) (slot : UInt32) (o : LabelOptions) (q : MachineRequest) :
    Except AlignmentFault (LabelReport × σ) :=
  (q.check s t slot).map (JumpTable.labelChecked s o)

end MachineRequest

end FirmScan
