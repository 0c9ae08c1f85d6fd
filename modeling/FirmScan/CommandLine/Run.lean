import FirmScan.CommandLine.Request
import FirmScan.Snapshot.Manifest

/-!
# Carrying out a command

A run reads the manifest, does the task on the snapshot, and prints the report. What it wrote while
labelling goes to the error output, line by line in the order of the writes; so does the error that
ends a run. A quiet run keeps both to itself.
-/

namespace FirmScan.CommandLine

/-- What a run leaves behind; each message is a line of the error output. -/
structure Outcome where
  exitCode : UInt32
  output : String
  messages : List String
  deriving DecidableEq, Repr

/-- How files are read: the text, or the reason why there is none. -/
abbrev FileReader := String → Except FileFault String

/-- Why a run fails. -/
inductive Failure where
  /-- The manifest at the path has no snapshot. -/
  | load (path : String) (error : Error)
  | task (error : Error)
  deriving DecidableEq, Repr

def Failure.message : Failure → String
  | .load path e => "loading session " ++ path ++ ": " ++ e.chain
  | .task e => e.chain

def load (read : FileReader) (path : String) : Except Error Snapshot :=
  match read path with
  | .error cause => .error (.unreadable cause)
  | .ok text => Snapshot.ofText text

def editMessage : Edit → String
  | .rename a name => "write: rename " ++ a.text ++ " -> " ++ name
  | .functionComment a text => "write: decompiler comment " ++ a.text ++ ": " ++ text
  | .lineComment a text => "write: disassembly comment " ++ a.text ++ ": " ++ text

/-- Do a task: the report, and what to tell of the writes. -/
def perform (s : Snapshot) (m : Machine) : Task → Except Error (Report × List String)
  | .slot table slot => .ok (.slot (table.check s m slot), [])
  | .scan table start count limit =>
    (JumpTable.checkBatch count limit).map fun _ => (.scan (table.scan s m start count), [])
  | .label table slot options =>
    let (report, s) := table.label s m slot options
    .ok (.label report, s.journal.map editMessage)
  | .access function options => .ok (.access (Remarks.annotate s function options).1, [])

def execute (read : FileReader) (r : Request) : Except Failure (Report × List String) :=
  match load read r.manifest with
  | .error e => .error (.load r.manifest e)
  | .ok s => (perform s (Machine.ofName r.machine) r.task).mapError .task

def run (read : FileReader) (r : Request) : Outcome :=
  match execute read r with
  | .ok (report, messages) => ⟨0, report.render r.layout, if r.quiet then [] else messages⟩
  | .error e => ⟨1, "", if r.quiet then [] else ["Error: " ++ e.message]⟩

/-! ## From arguments to outcome -/

def version : String := "0.1.0"

def usage : String :=
  "Usage: bridge-inspect --session <FILE> [--arch <NAME>] [--format human|json|short] [-v] [-q] "
    ++ "slot|scan|process|mmio [OPTIONS]"

/-- Carry out a command. -/
def outcome (env : Environment) (read : FileReader) (args : List String) : Outcome :=
  match parse env args with
  | .ok r => run read r
  | .error .usage => ⟨2, "", [usage]⟩
  | .error .version => ⟨0, "bridge-inspect " ++ version ++ "\n", []⟩
  | .error .help => ⟨0, usage ++ "\n", []⟩

end FirmScan.CommandLine
