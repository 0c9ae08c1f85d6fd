import FirmScan.Access.Remarks
import FirmScan.JumpTable.Label
import FirmScan.JumpTable.Scan

/-!
# Reports as text for people

Each report has a full text, which may show the notes as well (`verbose`), and a text of one line
for quiet runs.
-/

namespace FirmScan

namespace Plain

def number (n : Nat) : String := String.ofList (Numeral.decimal n)

def flag (b : Bool) : String := if b then "true" else "false"

/-- An address, or a dash. -/
def address? (a : Option Address) : String := (a.map Address.text).getD "-"

def padLeft (width : Nat) (s : String) : String := String.ofList (s.toList.leftpad width ' ')

def padRight (width : Nat) (s : String) : String := String.ofList (s.toList.rightpad width ' ')

end Plain

open Plain

namespace SlotReport

/-- The codes of the problems, or `ok`. -/
def verdict (r : SlotReport) : String :=
  if r.problems.isEmpty then "ok" else ",".intercalate (r.problems.map (·.code))

def plain (verbose : Bool) (r : SlotReport) : String :=
  "  slot " ++ padLeft 4 (number r.slot.toNat) ++ " @ " ++ r.address.text
    ++ "  raw " ++ (r.raw.map Word.text).getD "-"
    ++ "  " ++ padRight 5 ((r.mode.map (·.name)).getD "-") ++ " -> " ++ address? r.target
    ++ "  [" ++ r.verdict ++ "]\n"
    ++ (if verbose then String.join (r.notes.map fun n => "      [info] " ++ n ++ "\n") else "")

def plainQuiet (r : SlotReport) : String :=
  number r.slot.toNat ++ ": " ++ address? r.target ++ "\n"

end SlotReport

namespace ScanReport

def plain (verbose : Bool) (r : ScanReport) : String :=
  "Jump table slots " ++ number r.start.toNat ++ ".."
    ++ number (r.start.toNat + r.count.toNat) ++ "\n"
    ++ String.join (r.items.map (·.plain verbose))
    ++ "  Total: " ++ number r.total.toNat ++ "  Valid: " ++ number r.valid.toNat
    ++ "  Invalid: " ++ number r.invalid.toNat ++ "\n"

def plainQuiet (r : ScanReport) : String :=
  number r.valid.toNat ++ " valid, " ++ number r.invalid.toNat ++ " invalid\n"

end ScanReport

namespace LabelReport

def plain (verbose : Bool) (r : LabelReport) : String :=
  r.slot.plain verbose
    ++ "  Writes:     renamed=" ++ flag r.writes.renamed
    ++ " comment_set=" ++ flag r.writes.commented ++ "\n"
    ++ "  Verify:     name=" ++ r.readBack.name.getD "-"
    ++ " comment_present=" ++ flag r.readBack.commentPresent ++ "\n"

def plainQuiet (r : LabelReport) : String := r.slot.plainQuiet

end LabelReport

def Sample.plain (s : Sample) : String :=
  "    " ++ s.address.text ++ "  " ++ padRight 6 s.kind.name ++ " " ++ s.shownAddress.text ++ "\n"

namespace AccessReport

/-- The name of the function, or a question mark. -/
def title (r : AccessReport) : String := r.functionName.getD "?"

def plain (verbose : Bool) (r : AccessReport) : String :=
  "Function:   " ++ r.function.text ++ " (" ++ r.title ++ ")\n"
    ++ "  Reads:      " ++ number r.reads ++ "\n"
    ++ "  Writes:     " ++ number r.writes ++ "\n"
    ++ "  OR:         " ++ number r.bitOrs ++ "\n"
    ++ "  AND:        " ++ number r.bitAnds ++ "\n"
    ++ "  Toggles:    " ++ number r.bitXors ++ "\n"
    ++ (if r.skipped > 0 then "  Skipped:    " ++ number r.skipped ++ "\n" else "")
    ++ "  Annotated:  " ++ number r.annotated ++ "\n"
    ++ (if r.samples.isEmpty then "" else "  Samples:\n" ++ String.join (r.samples.map (·.plain)))
    ++ (if verbose then String.join (r.notes.map fun n => "  [info] " ++ n ++ "\n") else "")

def plainQuiet (r : AccessReport) : String :=
  r.function.text ++ " " ++ r.title ++ ": R" ++ number r.reads ++ " W" ++ number r.writes
    ++ " OR" ++ number r.bitOrs ++ " AND" ++ number r.bitAnds ++ " XOR" ++ number r.bitXors ++ "\n"

end AccessReport

end FirmScan
