import FirmScan.JumpTable
import FirmScan.Machine
import FirmScan.Problem

/-!
# Checking a slot

A slot passes four tests, and the first that it fails is its one problem.

1. Its word can be read.
2. The word is not an instruction. This test comes before the next, so that an instruction is
   reported as such wherever its value falls.
3. The word points into the code.
4. One of the entries that the machine sees in the pointer is the start of a function.

The first three tests (`screen`) look at the word alone; the last (`resolve`) asks the disassembler
about functions.
-/

namespace FirmScan

universe u

/-- What is known of a slot after it was checked. -/
structure SlotReport where
  slot : UInt32
  address : Address
  raw : Option Word
  mode : Option Mode
  target : Option Address
  notes : List String
  problems : List Problem
  deriving DecidableEq, Repr

/-- A slot is valid when it leads somewhere and nothing is wrong with it. -/
def SlotReport.isValid (r : SlotReport) : Bool := r.problems.isEmpty && r.target.isSome

namespace JumpTable

/-- The report on a slot that leads nowhere. -/
def failure (t : JumpTable) (slot : UInt32) (raw : Option Word) (notes : List String)
    (problem : Problem) : SlotReport :=
  ⟨slot, t.slotAddress slot, raw, none, none, notes, [problem]⟩

/-- The first three tests: the pointer in the slot, or the report that there is none. -/
def screen {σ : Type u} [Disassembler σ] (s : σ) (isInstruction : Word → Bool) (t : JumpTable)
    (slot : UInt32) : Except SlotReport Word :=
  match Disassembler.readWord? s (t.slotAddress slot) with
  | none => .error (t.failure slot none [] .unreadable)
  | some raw =>
    if isInstruction raw then
      .error (t.failure slot (some raw)
        ["raw word " ++ raw.text ++ " is an instruction encoding"] .instruction)
    else if t.inCode raw.toUInt64 then .ok raw
    else
      .error (t.failure slot (some raw)
        [raw.text ++ " outside code range [" ++ t.codeStart.text ++ ", " ++ t.codeStop.text ++ ")"]
        .outOfRange)

/-- The note on a pointer none of whose entries starts a function. -/
def missNote (p : Address) (entries : List Entry) : String :=
  if entries.isEmpty then "no candidate entry for pointer " ++ p.text
  else
    "no verified entry among "
      ++ ", ".intercalate (entries.map fun e => e.mode.name ++ "@" ++ e.address.text)

/-- The last test, for a pointer that passed the others. -/
def resolve {σ : Type u} [Disassembler σ] (s : σ) (m : Machine) (t : JumpTable) (slot : UInt32)
    (raw : Word) : SlotReport :=
  let p := raw.toUInt64
  let notes :=
    if m.checks.contains .probe then [] else [m.name ++ " adapter cannot probe entry points"]
  match m.probe? s p with
  | some e =>
    { slot, address := t.slotAddress slot, raw := some raw, mode := some e.mode,
      target := some e.address, problems := [],
      notes := notes ++ ["verified " ++ e.mode.name ++ " entry at " ++ e.address.text] }
  | none => t.failure slot (some raw) (notes ++ [missNote p (m.entries p)]) .noFunction

/-- Check one slot. -/
def check {σ : Type u} [Disassembler σ] (s : σ) (m : Machine) (t : JumpTable) (slot : UInt32) :
    SlotReport :=
  match t.screen s m.isInstruction slot with
  | .error r => r
  | .ok raw => t.resolve s m slot raw

end JumpTable

end FirmScan
