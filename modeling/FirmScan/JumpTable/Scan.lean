import FirmScan.Error
import FirmScan.JumpTable.Slot

/-!
# Scanning a run of slots

A scan checks consecutive slots. Slot numbers have 32 bits and do not wrap: a run that would pass
the last slot is clamped there before it starts.
-/

namespace FirmScan

universe u

/-- The slots that were checked, with their totals. -/
structure ScanReport where
  start : UInt32
  count : UInt32
  total : UInt32
  valid : UInt32
  invalid : UInt32
  items : List SlotReport
  deriving DecidableEq, Repr

namespace JumpTable

/-- A batch may have as many slots as the limit says, and no more. -/
def checkBatch (count limit : UInt32) : Except Error Unit :=
  if count > limit then .error (.batchTooLarge count limit) else .ok ()

/-- How many slots there are from `start` on. There may be 2^32 of them, so the number has 64
bits. -/
def available (start : UInt32) : UInt64 := (0xFFFFFFFF - start).toUInt64 + 1

/-- A number in 32 bits, if it has no more. -/
def narrow? (n : UInt64) : Option UInt32 := if n ≤ 0xFFFFFFFF then some n.toUInt32 else none

/-- How many of `count` slots from `start` on there are. -/
def clamp (start count : UInt32) : UInt32 :=
  (narrow? (min count.toUInt64 (available start))).getD count

/-- The numbers of `count` slots. -/
def slots (start count : UInt32) : List UInt32 :=
  (List.range count.toNat).map fun k => start + UInt32.ofNat k

/-- The report on checked slots. -/
def tally (start count : UInt32) (items : List SlotReport) : ScanReport :=
  let total := UInt32.ofNat items.length
  let invalid := UInt32.ofNat (items.countP fun r => !r.problems.isEmpty)
  { start, count, total, valid := total - invalid, invalid, items }

/-- Check the slots of a run. -/
def scan {σ : Type u} [Disassembler σ] (s : σ) (m : Machine) (t : JumpTable)
    (start count : UInt32) : ScanReport :=
  let count := clamp start count
  tally start count ((slots start count).map (t.check s m))

end JumpTable

end FirmScan
