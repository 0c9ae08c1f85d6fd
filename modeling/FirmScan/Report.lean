import FirmScan.Json.Printer
import FirmScan.Report.Json
import FirmScan.Report.Tabular

/-!
# Reports and their layouts

A run ends in one of four reports, and a report is printed in one of the layouts.
-/

namespace FirmScan

inductive Report where
  | slot (r : SlotReport)
  | scan (r : ScanReport)
  | label (r : LabelReport)
  | access (r : AccessReport)
  deriving DecidableEq, Repr

inductive Layout where
  | plain (verbose : Bool)
  | quiet
  | json
  | compactJson
  | tabular
  deriving DecidableEq, Repr

namespace Report

def toJson : Report → Json
  | .slot r => r.toJson
  | .scan r => r.toJson
  | .label r => r.toJson
  | .access r => r.toJson

def plain (verbose : Bool) : Report → String
  | .slot r => r.plain verbose
  | .scan r => r.plain verbose
  | .label r => r.plain verbose
  | .access r => r.plain verbose

def plainQuiet : Report → String
  | .slot r => r.plainQuiet
  | .scan r => r.plainQuiet
  | .label r => r.plainQuiet
  | .access r => r.plainQuiet

def tabular : Report → String
  | .slot r => r.tabular
  | .scan r => r.tabular
  | .label r => r.tabular
  | .access r => r.tabular

/-- The text of a report, with its final line end. -/
def render (r : Report) : Layout → String
  | .plain verbose => r.plain verbose
  | .quiet => r.plainQuiet
  | .json => r.toJson.pretty ++ "\n"
  | .compactJson => r.toJson.compact ++ "\n"
  | .tabular => r.tabular

end Report

end FirmScan
