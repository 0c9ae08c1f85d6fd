import FirmScan.Access.Remarks
import FirmScan.JumpTable.Label
import FirmScan.JumpTable.Scan
import FirmScan.Json

/-!
# Reports as JSON values

Numbers are naturals, addresses and words are strings in the report spelling, and what is absent is
`null`. The order of the fields is fixed.
-/

namespace FirmScan

namespace SlotReport

def jsonFields (r : SlotReport) : List (String × Json) :=
  [("slot", .natural r.slot.toNat),
   ("slot_addr", .string r.address.text),
   ("raw", .ofOption (fun w => .string (Word.text w)) r.raw),
   ("mode", .ofOption (fun m => .string m.name) r.mode),
   ("target", .ofOption (fun a => .string (Address.text a)) r.target),
   ("notes", .strings r.notes),
   ("errors", .strings (r.problems.map (·.code)))]

def toJson (r : SlotReport) : Json := .object r.jsonFields

end SlotReport

def ScanReport.toJson (r : ScanReport) : Json :=
  .object
    [("range", .object [("start", .natural r.start.toNat), ("count", .natural r.count.toNat)]),
     ("summary", .object
       [("total", .natural r.total.toNat), ("valid", .natural r.valid.toNat),
        ("invalid", .natural r.invalid.toNat)]),
     ("items", .array (r.items.map (·.toJson)))]

/-- The fields of the slot, then what was written and read back. -/
def LabelReport.toJson (r : LabelReport) : Json :=
  .object <| r.slot.jsonFields ++
    [("writes", .object
       [("renamed", .bool r.writes.renamed), ("comment_set", .bool r.writes.commented)]),
     ("verify", .object
       [("name", .ofOption .string r.readBack.name),
        ("comment_present", .bool r.readBack.commentPresent)])]

def Sample.toJson (s : Sample) : Json :=
  .object
    [("addr", .string s.address.text), ("op", .string s.kind.name),
     ("target", .string s.target.text), ("address_abs", .string s.shownAddress.text)]

def AccessReport.toJson (r : AccessReport) : Json :=
  .object
    [("function", .string r.function.text),
     ("function_name", .ofOption .string r.functionName),
     ("reads", .natural r.reads),
     ("writes", .natural r.writes),
     ("bitwise_or", .natural r.bitOrs),
     ("bitwise_and", .natural r.bitAnds),
     ("toggles", .natural r.bitXors),
     ("skipped", .natural r.skipped),
     ("annotated", .natural r.annotated),
     ("samples", .array (r.samples.map (·.toJson))),
     ("notes", .strings r.notes)]

end FirmScan
