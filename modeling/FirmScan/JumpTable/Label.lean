import FirmScan.JumpTable.Slot
import FirmScan.Template
import FirmScan.Text.Quoted

/-!
# Labelling a slot's target

Labelling gives the function that a slot leads to a name and a comment.

1. The slot is checked. A slot without a target, or with target 0, is not labelled.
2. In a dry run the function is looked up and nothing is written.
3. If writes are enabled and both patterns can be filled in, the function is renamed, then
   commented. A bad comment pattern therefore also keeps the function from being renamed.
4. The function is read back. The labels count as written only if both writes were acknowledged and
   what is read back shows the name and contains the comment. Whatever is missing, the report says
   once that the labels are unconfirmed.
-/

namespace FirmScan

universe u

structure LabelOptions where
  namePattern : String := "jt_case_\x7bslot\x7d_\x7btarget\x7d"
  commentPattern : String := "jump table slot \x7bslot\x7d -> 0x\x7btarget:08X\x7d"
  /-- Read only. -/
  dryRun : Bool := false
  writesEnabled : Bool := false
  deriving DecidableEq, Repr

/-- What the two writes answered. -/
structure WriteAnswers where
  renamed : Bool := false
  commented : Bool := false
  deriving DecidableEq, Repr

/-- What was read of the function at last. -/
structure ReadBack where
  name : Option String := none
  commentPresent : Bool := false
  deriving DecidableEq, Repr

structure LabelReport where
  slot : SlotReport
  writes : WriteAnswers
  readBack : ReadBack
  deriving DecidableEq, Repr

namespace SlotReport

/-- The report on a slot that cannot be labelled; at least one problem says why. -/
def withoutTarget (r : SlotReport) : SlotReport :=
  { r with
    mode := none
    target := none
    problems := if r.problems.isEmpty then [.noFunction] else r.problems }

/-- The address to label: a target other than 0 of a slot without problems. -/
def labelTarget? (r : SlotReport) : Option Address :=
  if r.problems.isEmpty then r.target.filter (· ≠ 0) else none

/-- Enter a problem, unless it is there already. -/
def pushUnique (r : SlotReport) (p : Problem) : SlotReport :=
  { r with problems := if p ∈ r.problems then r.problems else r.problems ++ [p] }

def withNote (r : SlotReport) (note : String) : SlotReport := { r with notes := r.notes ++ [note] }

end SlotReport

namespace JumpTable

/-- Fill in both patterns; the name comes first. -/
def fillPatterns (o : LabelOptions) (slot : UInt32) (target : Address) :
    Except Problem (String × String) := do
  let name ← Template.fill o.namePattern slot target
  let comment ← Template.fill o.commentPattern slot target
  return (name, comment)

/-- Look at the function at `target`, and say what a run would call it. -/
def preview {σ : Type u} [Disassembler σ] (s : σ) (o : LabelOptions) (r : SlotReport)
    (target : Address) : LabelReport :=
  let readBack : ReadBack := match Disassembler.functionAt? s target with
    | some f => ⟨some f.name, f.comment.any (· ≠ "")⟩
    | none => {}
  let notes := match Template.fill o.namePattern r.slot target with
    | .ok name => ["dry run: would rename to " ++ name]
    | .error _ => []
  ⟨{ r with notes := r.notes ++ notes }, {}, readBack⟩

/-- What the function that was read back shows of the labels. -/
def shown (comment : String) : Option FunctionInfo → ReadBack
  | some f => ⟨some f.name, f.comment.any fun c => Text.occurs comment.toList c.toList⟩
  | none => {}

/-- Compare the function that was read back with the labels, as far as the writes were
acknowledged. -/
def confirm (r : SlotReport) (name comment : String) (w : WriteAnswers) :
    Option FunctionInfo → SlotReport
  | none => (r.withNote "function metadata missing after write").pushUnique .unconfirmed
  | some f =>
    let r :=
      if w.renamed && f.name ≠ name then
        (r.withNote ("read-back name " ++ Text.quoted f.name ++ " does not match "
          ++ Text.quoted name)).pushUnique .unconfirmed
      else r
    if w.commented && !(shown comment (some f)).commentPresent then
      (r.withNote "read-back comment missing").pushUnique .unconfirmed
    else r

/-- Write the labels and read them back. -/
def writeLabels {σ : Type u} [Disassembler σ] (s : σ) (r : SlotReport) (target : Address)
    (name comment : String) : LabelReport × σ :=
  let (renamed, s) := Disassembler.rename s target name
  let r := if renamed then r else r.pushUnique .unconfirmed
  let (commented, s) := Disassembler.commentFunction s target comment
  let r := if commented then r else r.pushUnique .unconfirmed
  let writes : WriteAnswers := ⟨renamed, commented⟩
  let found := Disassembler.functionAt? s target
  (⟨confirm r name comment writes found, writes, shown comment found⟩, s)

/-- Label a slot that was checked. -/
def labelChecked {σ : Type u} [Disassembler σ] (s : σ) (o : LabelOptions) (r : SlotReport) :
    LabelReport × σ :=
  match r.labelTarget? with
  | none => (⟨r.withoutTarget, {}, {}⟩, s)
  | some target =>
    if o.dryRun then (preview s o r target, s)
    else if !o.writesEnabled then
      (⟨{ r with problems := r.problems ++ [.writesDisabled] }, {}, {}⟩, s)
    else match fillPatterns o r.slot target with
      | .error p => (⟨{ r with problems := r.problems ++ [p] }, {}, {}⟩, s)
      | .ok (name, comment) => writeLabels s r target name comment

/-- Check a slot and label its target. -/
def label {σ : Type u} [Disassembler σ] (s : σ) (m : Machine) (t : JumpTable) (slot : UInt32)
    (o : LabelOptions) : LabelReport × σ :=
  labelChecked s o (t.check s m slot)

end JumpTable

end FirmScan
