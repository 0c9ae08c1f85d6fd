import FirmScan.Access.Registers

/-!
# Surveying a listing

A survey lists the accesses of a function in the order of its lines. Inline data is collected first,
from the whole listing, because code refers to data below it. A load or store whose target is not
known is left out and counted: a missing access is better than a wrong address.
-/

namespace FirmScan

/-- An access, the address of its instruction, and its target: an address, or a mask for the bitwise
kinds. -/
structure Operation where
  address : Address
  kind : Access
  target : Address
  deriving DecidableEq, Repr

structure Survey where
  operations : List Operation
  skipped : Nat
  dataLines : Nat
  deriving DecidableEq, Repr

namespace Survey

/-- The data of a listing in the order of its lines. -/
def dataOf (lines : List Line) : List (Address × UInt64) :=
  lines.filterMap fun
    | .data a v => some (a, v)
    | .instruction _ => none

def instructionsOf (lines : List Line) : List Instruction :=
  lines.filterMap fun
    | .instruction i => some i
    | .data .. => none

/-- The inline data by address; of two data at one address the later one counts. -/
def poolOf (data : List (Address × UInt64)) : Pool := fun a => data.reverse.lookup a

/-- For each instruction that is an access, the operation or `none` if its target is not known. -/
def outcomes (pool : Pool) : Registers → List Instruction → List (Option Operation)
  | _, [] => []
  | r, i :: rest =>
    let later := outcomes pool (r.observe pool i) rest
    match Access.ofMnemonic? i.mnemonic with
    | none => later
    | some k => (r.target? pool i k).map (⟨i.address, k, ·⟩) :: later

/-- The survey of lines that were read. -/
def ofLines (lines : List Line) : Survey :=
  let data := dataOf lines
  let found := outcomes (poolOf data) .empty (instructionsOf lines)
  { operations := found.filterMap id
    skipped := found.countP (·.isNone)
    dataLines := data.length }

/-- The survey of a listing; lines that cannot be read are passed over. -/
def ofListing (lines : List String) : Survey :=
  ofLines (lines.filterMap fun l => Line.parse? l.toList)

/-- How many operations are of a kind. -/
def count (s : Survey) (k : Access) : Nat := s.operations.countP (·.kind = k)

end Survey

end FirmScan
