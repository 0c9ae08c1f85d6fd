import FirmScan.Address

/-!
# Jump tables

A jump table is a run of words in memory, its *slots*, together with the range of addresses that may
hold code. Addresses wrap at 2^64, so a table may run over the end of memory.
-/

namespace FirmScan

structure JumpTable where
  /-- The address of slot 0. -/
  base : Address
  /-- The first address of the code. -/
  codeStart : Address
  /-- The address behind the code. -/
  codeStop : Address
  deriving DecidableEq, Repr

namespace JumpTable

/-- The address of a slot. -/
def slotAddress (t : JumpTable) (slot : UInt32) : Address := t.base + 4 * slot.toUInt64

/-- Whether a pointer leads into the code. -/
def inCode (t : JumpTable) (p : Address) : Bool := t.codeStart ≤ p && p < t.codeStop

end JumpTable

end FirmScan
