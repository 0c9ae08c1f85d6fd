import FirmScan.Access.Remarks
import FirmScan.CommandLine.Arguments
import FirmScan.JumpTable.Label
import FirmScan.JumpTable.Scan
import FirmScan.Report

/-!
# What a command asks for

A command names a manifest, one of four tasks, and how to report on it. The options that concern the
machine and the report may stand before or behind the task's name; if such an option stands in both
places, the one behind the name counts.

**Environment.** Three options take their value from the environment when they are not given. Only
the tasks that have such an option look at its variable, and a variable with a bad value is a fault.
-/

namespace FirmScan.CommandLine

/-- The variables of the environment. -/
abbrev Environment := String → Option String

inductive Format where
  | human
  | json
  | short
  deriving DecidableEq, Repr

inductive Task where
  | slot (table : JumpTable) (slot : UInt32)
  | scan (table : JumpTable) (start count limit : UInt32)
  | label (table : JumpTable) (slot : UInt32) (options : LabelOptions)
  | access (function : Address) (options : AnnotateOptions)
  deriving DecidableEq, Repr

structure Request where
  manifest : String
  machine : String
  format : Format
  verbose : Bool
  quiet : Bool
  task : Task
  deriving DecidableEq, Repr

/-- The layout of the report; quiet wins over verbose, and both concern text for people only. -/
def Request.layout (r : Request) : Layout :=
  match r.format with
  | .human => if r.quiet then .quiet else .plain r.verbose
  | .json => .json
  | .short => .tabular

/-! ## Values -/

namespace Value

def format? : String → Option Format
  | "human" => some .human
  | "json" => some .json
  | "short" => some .short
  | _ => none

def address? (s : String) : Option Address := Address.parse? s.toList

/-- A number of 32 bits; it may be signed, as long as it is not below zero. -/
def number? (s : String) : Option UInt32 :=
  (Numeral.signed64? 10 s.toList).bind fun n =>
    if 0 ≤ n.toInt && n.toInt < UInt32.size then some (UInt32.ofNat n.toInt.toNat) else none

/-- A number of 64 bits. -/
def count? (s : String) : Option Nat := (Numeral.unsigned64? 10 s.toList).map (·.toNat)

def switch? : String → Option Bool
  | "true" => some true
  | "false" => some false
  | _ => none

end Value

/-! ## Options -/

def textOption (name : String) : Spec := ⟨name, none, .value fun _ => true⟩

def addressOption (name : String) : Spec := ⟨name, none, .value fun s => (Value.address? s).isSome⟩

def numberOption (name : String) : Spec := ⟨name, none, .value fun s => (Value.number? s).isSome⟩

def helpOption : Spec := ⟨"help", some 'h', .request .help⟩

/-- The options that may stand on either side of the task's name. -/
def sharedOptions : List Spec :=
  [⟨"arch", some 'a', .value fun _ => true⟩,
   ⟨"format", some 'f', .value fun s => (Value.format? s).isSome⟩,
   ⟨"verbose", some 'v', .flag⟩,
   ⟨"quiet", some 'q', .flag⟩,
   helpOption]

/-- The options before the task's name. -/
def leadingOptions : List Spec :=
  ⟨"session", some 's', .value fun s => !s.isEmpty⟩
    :: ⟨"version", some 'V', .request .version⟩ :: sharedOptions

def tableOptions : List Spec := ["jt-base", "code-min", "code-max"].map addressOption

def writeOptions : List Spec := [⟨"dry-run", none, .flag⟩, ⟨"enable-writes", none, .flag⟩]

/-! ## Tasks -/

def readTable (g : Given) : Option JumpTable := do
  let base ← (g.lookup "jt-base").bind Value.address?
  let codeStart ← (g.lookup "code-min").bind Value.address?
  let codeStop ← (g.lookup "code-max").bind Value.address?
  return ⟨base, codeStart, codeStop⟩

/-- A value that was given, or else that of a variable, or else the one it has by default. -/
def valueOr {α : Type} (read : String → Option α) (g : Given) (name : String)
    (fallback : Option String) (default : α) : Option α :=
  match (g.lookup name).or fallback with
  | some s => read s
  | none => some default

/-- Whether writes are enabled, by the flag or else by the variable. -/
def readWrites (env : Environment) (g : Given) : Option Bool :=
  if g.has "enable-writes" then some true
  else match env "BRIDGE_ENABLE_WRITES" with
    | some s => Value.switch? s
    | none => some false

/-- A task's name, its own options, and what they ask for; `none` if something needed is missing. -/
structure TaskSpec where
  name : String
  options : List Spec
  read : Environment → Given → Option Task

def slotTask : TaskSpec where
  name := "slot"
  options := tableOptions ++ [numberOption "slot"]
  read := fun _ g => do
    let table ← readTable g
    let slot ← (g.lookup "slot").bind Value.number?
    return .slot table slot

def scanTask : TaskSpec where
  name := "scan"
  options := tableOptions ++ ["start", "count", "max-slots"].map numberOption
  read := fun _ g => do
    let table ← readTable g
    let start ← valueOr Value.number? g "start" none 0
    let count ← (g.lookup "count").bind Value.number?
    let limit ← valueOr Value.number? g "max-slots" none 4096
    return .scan table start count limit

def labelTask : TaskSpec where
  name := "process"
  options :=
    tableOptions ++ [numberOption "slot", textOption "pattern", textOption "comment"] ++
      writeOptions
  read := fun env g => do
    let table ← readTable g
    let slot ← (g.lookup "slot").bind Value.number?
    let writesEnabled ← readWrites env g
    let standard : LabelOptions := {}
    return .label table slot
      { namePattern := (g.lookup "pattern").getD standard.namePattern
        commentPattern := (g.lookup "comment").getD standard.commentPattern
        dryRun := g.has "dry-run"
        writesEnabled }

def accessTask : TaskSpec where
  name := "mmio"
  options :=
    [addressOption "function", ⟨"max-samples", none, .value fun s => (Value.count? s).isSome⟩]
      ++ writeOptions
  read := fun env g => do
    let function ← (g.lookup "function").bind Value.address?
    let standard : AnnotateOptions := {}
    let maxSamples ←
      valueOr Value.count? g "max-samples" (env "BRIDGE_MAX_SAMPLES") standard.maxSamples
    let writesEnabled ← readWrites env g
    return .access function { maxSamples, dryRun := g.has "dry-run", writesEnabled }

def tasks : List TaskSpec := [slotTask, scanTask, labelTask, accessTask]

/-! ## Commands -/

/-- What the options before and behind the task's name ask for together. -/
def combine (env : Environment) (t : TaskSpec) (leading own : Given) : Option Request := do
  let manifest ← leading.lookup "session"
  let shared := fun name => (own.lookup name).or (leading.lookup name)
  let machine := ((shared "arch").or (env "BRIDGE_ARCH")).getD "arm"
  let format ← match shared "format" with
    | some s => Value.format? s
    | none => some .human
  let task ← t.read env own
  return {
    manifest, machine, format, task
    verbose := (shared "verbose").isSome
    quiet := (shared "quiet").isSome }

/-- Whether the words behind `help` name something there is help on. -/
def helpTopic (words : List String) : Bool :=
  match words with
  | [] => true
  | [word] => word = "help" || tasks.any (·.name = word)
  | _ => false

/-- Read a command. -/
def parse (env : Environment) (args : List String) : Except Stop Request := do
  let (leading, words) ← readOptions leadingOptions [] args
  match words with
  | [] => .error .usage
  | word :: rest =>
    if word = "help" then .error (if helpTopic rest then .help else .usage)
    else match tasks.find? (·.name = word) with
      | none => .error .usage
      | some t =>
        let (own, extra) ← readOptions (t.options ++ sharedOptions) [] rest
        if !extra.isEmpty then .error .usage
        else match combine env t leading own with
          | some r => .ok r
          | none => .error .usage

end FirmScan.CommandLine
