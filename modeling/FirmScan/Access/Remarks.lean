import FirmScan.Access.Survey
import FirmScan.Disassembler

/-!
# Annotating the accesses of a function

The accesses of a function are counted by kind, and the first of them by address become *samples*.
If writing is enabled, each sample's line gets a comment that names the access.
-/

namespace FirmScan

universe u

structure AnnotateOptions where
  /-- How many samples are kept at most. -/
  maxSamples : Nat := 32
  /-- Read only. -/
  dryRun : Bool := false
  writesEnabled : Bool := false
  deriving DecidableEq, Repr

def AnnotateOptions.mayWrite (o : AnnotateOptions) : Bool := !o.dryRun && o.writesEnabled

/-- An operation with the address to show for it. -/
structure Sample where
  address : Address
  kind : Access
  target : Address
  /-- The target, or the address of the instruction if the target is 0. -/
  shownAddress : Address
  deriving DecidableEq, Repr

namespace Sample

def ofOperation (o : Operation) : Sample :=
  ⟨o.address, o.kind, o.target, if o.target = 0 then o.address else o.target⟩

/-- The comment on the sample's line. -/
def comment (s : Sample) : String := "MMIO " ++ s.kind.name ++ " " ++ s.shownAddress.text

end Sample

structure AccessReport where
  function : Address
  functionName : Option String
  reads : Nat := 0
  writes : Nat := 0
  bitOrs : Nat := 0
  bitAnds : Nat := 0
  bitXors : Nat := 0
  skipped : Nat := 0
  /-- How many comments were acknowledged. -/
  annotated : Nat := 0
  samples : List Sample := []
  notes : List String := []
  deriving DecidableEq, Repr

namespace Remarks

/-- The operations by address; those at one address keep their order. -/
def ordered (ops : List Operation) : List Operation :=
  ops.mergeSort fun a b => a.address ≤ b.address

def samples (o : AnnotateOptions) (ops : List Operation) : List Sample :=
  ((ordered ops).take o.maxSamples).map Sample.ofOperation

/-- What a reader should know beyond the numbers. -/
def notes (o : AnnotateOptions) (s : Survey) : List String :=
  let number (n : Nat) : String := String.ofList (Numeral.decimal n)
  (if s.skipped > 0 then
    ["skipped " ++ number s.skipped ++ " load/store operations with unresolved targets"] else [])
    ++ (if s.operations.length > o.maxSamples then
      ["samples truncated to " ++ number o.maxSamples ++ " of " ++ number s.operations.length]
      else [])
    ++ (if !o.mayWrite && !o.dryRun then ["writes disabled; no comments written"] else [])

/-- Comment the lines of samples, and count the comments that were acknowledged. -/
def writeComments {σ : Type u} [Disassembler σ] (s : σ) : List Sample → Nat × σ
  | [] => (0, s)
  | sample :: rest =>
    let (done, s) := Disassembler.commentLine s sample.address sample.comment
    let (n, s) := writeComments s rest
    (n + done.toNat, s)

/-- Survey the function at an address and comment its accesses. -/
def annotate {σ : Type u} [Disassembler σ] (s : σ) (function : Address) (o : AnnotateOptions) :
    AccessReport × σ :=
  let functionName := (Disassembler.functionAt? s function).map (·.name)
  let lines := Disassembler.listing s function
  if lines.isEmpty then
    ({ function, functionName, notes := ["no disassembly for " ++ function.text] }, s)
  else
    let survey := Survey.ofListing lines
    let chosen := samples o survey.operations
    let (annotated, s) := if o.mayWrite then writeComments s chosen else (0, s)
    ({ function, functionName, annotated, samples := chosen, skipped := survey.skipped,
       reads := survey.count .read, writes := survey.count .write, bitOrs := survey.count .bitOr,
       bitAnds := survey.count .bitAnd, bitXors := survey.count .bitXor,
       notes := notes o survey }, s)

end Remarks

end FirmScan
