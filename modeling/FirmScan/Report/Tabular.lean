import FirmScan.Report.Plain

/-!
# Reports as lines of columns

One line per item, with its columns divided by tabs, for other programs to cut apart.
-/

namespace FirmScan

open Plain

/-- Columns, divided by tabs. -/
def Plain.columns (cells : List String) : String := "\t".intercalate cells

namespace SlotReport

def tabularCells (r : SlotReport) : List String :=
  [number r.slot.toNat, r.address.text, address? r.target, r.verdict]

def tabular (r : SlotReport) : String := columns r.tabularCells ++ "\n"

end SlotReport

def ScanReport.tabular (r : ScanReport) : String := String.join (r.items.map (·.tabular))

def LabelReport.tabular (r : LabelReport) : String :=
  columns (r.slot.tabularCells ++ [r.readBack.name.getD "-", flag r.writes.renamed]) ++ "\n"

def AccessReport.tabular (r : AccessReport) : String :=
  columns
    (r.function.text
      :: [r.reads, r.writes, r.bitOrs, r.bitAnds, r.bitXors, r.annotated].map number) ++ "\n"

end FirmScan
