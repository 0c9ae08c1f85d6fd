import FirmScan.JumpTable.Slot
import FirmScan.Snapshot

/-!
# A disassembler that keeps a record

`Recorded` adds to a disassembler the list of the write calls that it was asked for, in order and
with their arguments. It passes every call on and answers as the disassembler behind it does, so an
analysis does not notice the record, and the record shows exactly what the analysis asked for.
Nothing is assumed of the disassembler behind.

What the disassembler answered to recorded calls is found by making them again
(`Disassembler.answers`).
-/

namespace FirmScan

universe u

structure Recorded (σ : Type u) where
  inner : σ
  calls : List Edit

namespace Disassembler

variable {σ : Type u} [Disassembler σ]

def write (s : σ) : Edit → Bool × σ
  | .rename a name => rename s a name
  | .functionComment a text => commentFunction s a text
  | .lineComment a text => commentLine s a text

/-- The answers to write calls that are made one after another, and the state behind the last. -/
def answers (s : σ) : List Edit → List Bool × σ
  | [] => ([], s)
  | call :: calls =>
    let answer := write s call
    let later := answers answer.2 calls
    (answer.1 :: later.1, later.2)

end Disassembler

namespace Recorded

variable {σ : Type u}

/-- A disassembler of which nothing was asked yet. -/
def start (s : σ) : Recorded σ := ⟨s, []⟩

/-- The state after a write call that was passed on. -/
def enter (d : Recorded σ) (call : Edit) (answer : Bool × σ) : Bool × Recorded σ :=
  (answer.1, ⟨answer.2, d.calls ++ [call]⟩)

instance [Disassembler σ] : Disassembler (Recorded σ) where
  readWord? d a := Disassembler.readWord? d.inner a
  listing d a := Disassembler.listing d.inner a
  functionAt? d a := Disassembler.functionAt? d.inner a
  rename d a name := d.enter (.rename a name) (Disassembler.rename d.inner a name)
  commentFunction d a text :=
    d.enter (.functionComment a text) (Disassembler.commentFunction d.inner a text)
  commentLine d a text := d.enter (.lineComment a text) (Disassembler.commentLine d.inner a text)

/-- Checking a slot only reads, so the record does not matter to it. -/
theorem check_eq [Disassembler σ] (d : Recorded σ) (m : Machine) (t : JumpTable) (slot : UInt32) :
    t.check d m slot = t.check d.inner m slot := rfl

end Recorded

end FirmScan
