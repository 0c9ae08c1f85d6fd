import FirmScan.Proofs.JumpTable.Labelling
import FirmScan.Proofs.Snapshot.Reachable

/-!
# Labelling again, and in another order

Labelling reads a snapshot twice, to check the slot and to confirm what was written, and writes in
between. This file shows that the writes do not come back into what is read.

**What is written** (`plan?`). The report on the slot and the options decide it: the function at the
target gets a name and a comment (`Snapshot.relabel`), or nothing is written at all.

**What is read.** Names and comments play no part in the check of a slot (`check_relabel`), and the
function that is read back at a target is not touched by the labels of another target
(`labelChecked_relabel_of_ne`).

**Theorem (`label_again_and_apart`).** To label a slot a second time gives the same report and
leaves the contents of the snapshot as they are. Two slots that do not lead to the same target may
be labelled in either order: the reports are the same, the contents are the same, and the journals
have the same entries.
-/

namespace FirmScan

universe u

/-! ## What is written -/

/-- New labels for the function at an address. -/
structure Relabelling where
  target : Address
  name : String
  comment : String

/-- The record with new labels; an empty name is no name and leaves the old one. -/
def FunctionRecord.labelled (name comment : String) (f : FunctionRecord) : FunctionRecord :=
  { f with
    info := { f.info with
      name := if name = "" then f.info.name else name
      comment := some comment } }

theorem FunctionRecord.sameCode_labelled (name comment : String) (f : FunctionRecord) :
    SameCode f (f.labelled name comment) :=
  ⟨rfl, rfl, rfl⟩

theorem FunctionRecord.labelled_labelled (name comment : String) (f : FunctionRecord) :
    (f.labelled name comment).labelled name comment = f.labelled name comment := by
  by_cases h : name = "" <;> simp [labelled, h]

namespace Snapshot

/-- The snapshot with new labels on a function, and the two write calls in its journal. -/
def relabel (s : Snapshot) (x : Relabelling) : Snapshot :=
  { s with
    functions := s.functions.modify x.target (·.labelled x.name x.comment)
    journal := s.journal ++ [.rename x.target x.name, .functionComment x.target x.comment] }

/-- The two write calls, accepted or refused, leave the snapshot with the new labels. -/
theorem rename_commentFunction (s : Snapshot) (x : Relabelling) :
    ((s.rename x.target x.name).2.commentFunction x.target x.comment).2 = s.relabel x := by
  cases hget : s.functions.get? x.target with
  | none =>
    have hsame := AddressMap.modify_of_get?_eq_none hget
    simp [rename, commentFunction, record, relabel, hget, hsame]
  | some f =>
    by_cases hname : x.name = ""
    · have hlabelled (f : FunctionRecord) : f.labelled "" x.comment = f.withComment x.comment := by
        simp [FunctionRecord.labelled, FunctionRecord.withComment]
      simp [rename, commentFunction, record, relabel, hget, hname, hlabelled]
    · have hlabelled (f : FunctionRecord) :
          f.labelled x.name x.comment = (f.withName x.name).withComment x.comment := by
        simp [FunctionRecord.labelled, FunctionRecord.withComment, FunctionRecord.withName, hname]
      simp [rename, commentFunction, record, relabel, hget, hname, hlabelled,
        AddressMap.get?_modify, AddressMap.modify_modify, Function.comp_def]

/-- Both snapshots hold the same; their journals may differ. -/
structure SameContents (s s' : Snapshot) : Prop where
  segments : s.segments = s'.segments
  functions : s.functions = s'.functions
  lineComments : s.lineComments = s'.lineComments

theorem SameContents.refl (s : Snapshot) : s.SameContents s := ⟨rfl, rfl, rfl⟩

/-- The same labels a second time. -/
theorem relabel_relabel_self (s : Snapshot) (x : Relabelling) :
    ((s.relabel x).relabel x).SameContents (s.relabel x) where
  segments := rfl
  functions := by
    simp only [relabel, AddressMap.modify_modify]
    congr 1
    funext f
    exact f.labelled_labelled x.name x.comment
  lineComments := rfl

/-- Labels of two functions, in either order. -/
theorem relabel_comm (s : Snapshot) {x y : Relabelling} (hne : x.target ≠ y.target) :
    ((s.relabel x).relabel y).SameContents ((s.relabel y).relabel x) where
  segments := rfl
  functions := AddressMap.modify_comm s.functions hne _ _
  lineComments := rfl

theorem journal_relabel_comm (s : Snapshot) (x y : Relabelling) :
    ((s.relabel x).relabel y).journal.Perm ((s.relabel y).relabel x).journal := by
  simp only [relabel, List.append_assoc]
  exact List.perm_append_comm.append_left s.journal

/-! ## What is read -/

namespace Consistent

variable {s : Snapshot}

theorem relabel (h : s.Consistent) (x : Relabelling) : (s.relabel x).Consistent where
  segments := h.segments
  functions := h.functions.modify x.target (FunctionRecord.sameCode_labelled x.name x.comment)

theorem startsFunction_relabel (h : s.Consistent) (x : Relabelling) (a : Address) :
    Disassembler.startsFunction (s.relabel x) a = Disassembler.startsFunction s a := by
  rw [Bool.eq_iff_iff, (h.relabel x).startsFunction_iff, h.startsFunction_iff]
  constructor
  · intro ⟨f, hf, hlines⟩
    obtain ⟨g, hg, hsame⟩ :=
      FunctionRecord.exists_of_mem_modify (FunctionRecord.sameCode_labelled x.name x.comment) hf
    exact ⟨g, hg, by rw [← hsame.2.2]; exact hlines⟩
  · intro ⟨f, hf, hlines⟩
    refine ⟨if a = x.target then f.labelled x.name x.comment else f,
      AddressMap.mem_modify_iff.2 ⟨f, hf, rfl⟩, ?_⟩
    split <;> exact hlines

/-- **Labels do not come back into a check.** -/
theorem check_relabel (h : s.Consistent) (x : Relabelling) (m : Machine) (t : JumpTable)
    (slot : UInt32) :
    t.check (s.relabel x) m slot = t.check s m slot := by
  have hread (a : Address) : Disassembler.readWord? (s.relabel x) a = Disassembler.readWord? s a :=
    rfl
  exact JumpTable.check_congr hread (h.startsFunction_relabel x) m t slot

theorem functionAt?_of_get? (h : s.Consistent) {a : Address} {f : FunctionRecord}
    (hf : s.functions.get? a = some f) :
    s.functionAt? a = some f.info := by
  rw [functionAt?, h.functionContaining?_of_mem (AddressMap.get?_eq_some_iff.1 hf)]
  rfl

/-- A function is stored at the target of a slot. -/
theorem exists_get?_target (h : s.Consistent) {m : Machine} {t : JumpTable} {slot : UInt32}
    {a : Address} (ha : (t.check s m slot).target = some a) : ∃ f, s.functions.get? a = some f := by
  rcases JumpTable.check_cases s m t slot with ⟨raw, notes, problem, heq⟩ |
    ⟨w, e, notes, -, hprobe, heq⟩
  · rw [heq, JumpTable.failure] at ha
    cases ha
  · rw [heq] at ha
    cases ha
    rw [Machine.probe?] at hprobe
    have hstarts := List.find?_some hprobe
    obtain ⟨f, hf, -⟩ := h.startsFunction_iff.1 hstarts
    exact ⟨f, AddressMap.get?_eq_some_iff.2 hf⟩

end Consistent

end Snapshot

namespace JumpTable

/-! ## Labelling by plan -/

/-- What labelling writes, told from the report on the slot and the options. -/
def plan? (o : LabelOptions) (r : SlotReport) : Option Relabelling :=
  if o.dryRun || !o.writesEnabled then none
  else r.labelTarget?.bind fun target =>
    (fillPatterns o r.slot target).toOption.map fun texts => ⟨target, texts.1, texts.2⟩

/-- There is a plan only if writing is on, the slot has a target and both patterns can be filled. -/
theorem of_plan? {o : LabelOptions} {r : SlotReport} {x : Relabelling} (h : plan? o r = some x) :
    o.dryRun = false ∧ o.writesEnabled = true ∧ r.labelTarget? = some x.target ∧
      fillPatterns o r.slot x.target = .ok (x.name, x.comment) := by
  unfold plan? at h
  by_cases hwrite : (o.dryRun || !o.writesEnabled) = true
  · rw [if_pos hwrite] at h
    cases h
  · rw [if_neg hwrite] at h
    simp only [Bool.or_eq_true, not_or, Bool.not_eq_true', Bool.not_eq_true,
      Bool.not_eq_false] at hwrite
    obtain ⟨target, htarget, hfill⟩ := Option.bind_eq_some_iff.1 h
    obtain ⟨texts, htexts, rfl⟩ := Option.map_eq_some_iff.1 hfill
    refine ⟨hwrite.1, hwrite.2, htarget, ?_⟩
    cases hpatterns : fillPatterns o r.slot target with
    | error p =>
      rw [hpatterns] at htexts
      cases htexts
    | ok found =>
      rw [hpatterns] at htexts
      cases htexts
      rfl

theorem target_of_plan? {o : LabelOptions} {r : SlotReport} {x : Relabelling}
    (h : plan? o r = some x) :
    r.target = some x.target :=
  (labelTarget?_eq_some_iff.1 (of_plan? h).2.2.1).2.1

theorem problems_of_plan? {o : LabelOptions} {r : SlotReport} {x : Relabelling}
    (h : plan? o r = some x) :
    r.problems = [] :=
  (labelTarget?_eq_some_iff.1 (of_plan? h).2.2.1).1

section

variable {σ : Type u} [Disassembler σ]

theorem labelChecked_of_plan? {o : LabelOptions} {r : SlotReport} {x : Relabelling}
    (h : plan? o r = some x) (s : σ) :
    labelChecked s o r = writeLabels s r x.target x.name x.comment := by
  obtain ⟨hdry, hon, htarget, hpatterns⟩ := of_plan? h
  simp [labelChecked, htarget, hdry, hon, hpatterns]

/-- Without a plan nothing is written, and the report shows of the state the function at the target
at most. -/
theorem labelChecked_of_plan?_eq_none {o : LabelOptions} {r : SlotReport} (h : plan? o r = none)
    {s s' : σ}
    (hfound : ∀ a, r.target = some a →
      Disassembler.functionAt? s' a = Disassembler.functionAt? s a) :
    labelChecked s' o r = ((labelChecked s o r).1, s') := by
  unfold labelChecked
  cases htarget : r.labelTarget? with
  | none => rfl
  | some target =>
    have hsame := hfound target (labelTarget?_eq_some_iff.1 htarget).2.1
    cases hdry : o.dryRun with
    | true => simp [preview, hsame]
    | false =>
      cases hon : o.writesEnabled with
      | false => simp
      | true =>
        cases hpatterns : fillPatterns o r.slot target with
        | error p => simp [hpatterns]
        | ok texts => simp [plan?, hdry, hon, htarget, hpatterns, Except.toOption] at h

end

/-! ## Labelling a snapshot -/

variable {s s' : Snapshot}

theorem writeLabels_snd (s : Snapshot) (r : SlotReport) (x : Relabelling) :
    (writeLabels s r x.target x.name x.comment).2 = s.relabel x :=
  s.rename_commentFunction x

/-- **The report on written labels**, for a function that is stored: it rests on the texts and on
the function with its new labels. -/
theorem writeLabels_fst (h : s.Consistent) {r : SlotReport} (hr : r.problems = []) (x : Relabelling)
    {f : FunctionRecord} (hf : s.functions.get? x.target = some f) :
    let found := (f.labelled x.name x.comment).info
    let writes : WriteAnswers := ⟨x.name ≠ "", true⟩
    let notes := discrepancies x.name x.comment writes (some found)
    (writeLabels s r x.target x.name x.comment).1 =
      ⟨judged r notes (writes.renamed && writes.commented && notes.isEmpty), writes,
        shown x.comment (some found)⟩ := by
  intro found writes notes
  have hrenamed : (s.rename x.target x.name).1 = writes.renamed := by
    by_cases hname : x.name = "" <;> simp [writes, Snapshot.rename, Snapshot.record, hf, hname]
  have hcommented : ((s.rename x.target x.name).2.commentFunction x.target x.comment).1 =
      writes.commented := by
    by_cases hname : x.name = "" <;>
      simp [writes, Snapshot.rename, Snapshot.commentFunction, Snapshot.record, hf, hname,
        AddressMap.get?_modify]
  have hfound : ((s.rename x.target x.name).2.commentFunction x.target x.comment).2.functionAt?
      x.target = some found := by
    rw [s.rename_commentFunction x]
    exact (h.relabel x).functionAt?_of_get? (by simp [Snapshot.relabel, AddressMap.get?_modify, hf])
  rw [writeLabels_eq s hr]
  simp only [Disassembler.rename, Disassembler.commentFunction, Disassembler.functionAt?, hrenamed,
    hcommented, hfound]
  rfl

/-- **Labels elsewhere** do not show in the report on a slot. -/
theorem labelChecked_relabel_of_ne (h : s.Consistent) {m : Machine} {t : JumpTable} {slot : UInt32}
    (o : LabelOptions) {x : Relabelling} (hne : (t.check s m slot).target ≠ some x.target) :
    (labelChecked (s.relabel x) o (t.check s m slot)).1 =
      (labelChecked s o (t.check s m slot)).1 := by
  have hget {a : Address} (ha : (t.check s m slot).target = some a) :
      (s.relabel x).functions.get? a = s.functions.get? a := by
    have hax : a ≠ x.target := by
      intro hax
      rw [hax] at ha
      exact hne ha
    simp [Snapshot.relabel, AddressMap.get?_modify, hax]
  cases hplan : plan? o (t.check s m slot) with
  | none =>
    rw [labelChecked_of_plan?_eq_none hplan]
    intro a ha
    obtain ⟨f, hf⟩ := h.exists_get?_target ha
    exact ((h.relabel x).functionAt?_of_get? ((hget ha).trans hf)).trans
      (h.functionAt?_of_get? hf).symm
  | some y =>
    have hy := target_of_plan? hplan
    obtain ⟨f, hf⟩ := h.exists_get?_target hy
    have hr := problems_of_plan? hplan
    rw [labelChecked_of_plan? hplan, labelChecked_of_plan? hplan, writeLabels_fst h hr y hf,
      writeLabels_fst (h.relabel x) hr y ((hget hy).trans hf)]

/-! ## Labelling again, and in another order -/

theorem label_of_plan?_eq_none {m : Machine} {t : JumpTable} {slot : UInt32} {o : LabelOptions}
    (hplan : plan? o (t.check s m slot) = none) : (t.label s m slot o).2 = s := by
  rw [label, labelChecked_of_plan?_eq_none hplan fun _ _ => rfl]

theorem label_of_plan? {m : Machine} {t : JumpTable} {slot : UInt32} {o : LabelOptions}
    {x : Relabelling} (hplan : plan? o (t.check s m slot) = some x) :
    (t.label s m slot o).2 = s.relabel x := by
  rw [label, labelChecked_of_plan? hplan, writeLabels_snd]

/-- The labels of a slot do not show in the report on a slot with another target. -/
theorem label_fst_after (h : s.Consistent) {m : Machine} {t : JumpTable} {i j : UInt32}
    {o p : LabelOptions}
    (hapart : ∀ a, ¬ ((t.check s m i).target = some a ∧ (t.check s m j).target = some a)) :
    (t.label (t.label s m i o).2 m j p).1 = (t.label s m j p).1 := by
  cases hplan : plan? o (t.check s m i) with
  | none => rw [label_of_plan?_eq_none hplan]
  | some x =>
    have hne : (t.check s m j).target ≠ some x.target := by
      intro hj
      exact hapart x.target ⟨target_of_plan? hplan, hj⟩
    rw [label_of_plan? hplan, label, label, h.check_relabel]
    exact labelChecked_relabel_of_ne h p hne

theorem plan?_after (h : s.Consistent) (m : Machine) (t : JumpTable) (i j : UInt32)
    (o p : LabelOptions) :
    plan? p (t.check (t.label s m i o).2 m j) = plan? p (t.check s m j) := by
  cases hplan : plan? o (t.check s m i) with
  | none => rw [label_of_plan?_eq_none hplan]
  | some x => rw [label_of_plan? hplan, h.check_relabel]

/-- **Labelling again.** -/
theorem label_twice (h : s.Consistent) (m : Machine) (t : JumpTable) (slot : UInt32)
    (o : LabelOptions) :
    (t.label (t.label s m slot o).2 m slot o).1 = (t.label s m slot o).1 ∧
      (t.label (t.label s m slot o).2 m slot o).2.SameContents (t.label s m slot o).2 := by
  cases hplan : plan? o (t.check s m slot) with
  | none =>
    rw [label_of_plan?_eq_none hplan]
    exact ⟨rfl, by rw [label_of_plan?_eq_none hplan]; exact .refl s⟩
  | some x =>
    obtain ⟨f, hf⟩ := h.exists_get?_target (target_of_plan? hplan)
    have hlabelled : (s.relabel x).functions.get? x.target =
        some (f.labelled x.name x.comment) := by
      simp [Snapshot.relabel, AddressMap.get?_modify, hf]
    have hagain : plan? o (t.check (s.relabel x) m slot) = some x := by rw [h.check_relabel, hplan]
    rw [label_of_plan? hplan, label_of_plan? hagain]
    refine ⟨?_, s.relabel_relabel_self x⟩
    have hr := problems_of_plan? hplan
    rw [label, label, h.check_relabel, labelChecked_of_plan? hplan, labelChecked_of_plan? hplan,
      writeLabels_fst h hr x hf, writeLabels_fst (h.relabel x) hr x hlabelled, f.labelled_labelled]

/-- **Labelling in another order.** -/
theorem label_swap (h : s.Consistent) {m : Machine} {t : JumpTable} {i j : UInt32}
    (o p : LabelOptions)
    (hapart : ∀ a, ¬ ((t.check s m i).target = some a ∧ (t.check s m j).target = some a)) :
    (t.label (t.label s m i o).2 m j p).2.SameContents (t.label (t.label s m j p).2 m i o).2 ∧
      (t.label (t.label s m i o).2 m j p).2.journal.Perm
        (t.label (t.label s m j p).2 m i o).2.journal := by
  have hj := plan?_after h m t i j o p
  have hi := plan?_after h m t j i p o
  cases hplan : plan? o (t.check s m i) with
  | none =>
    rw [hplan] at hi
    rw [label_of_plan?_eq_none hi, label_of_plan?_eq_none hplan]
    exact ⟨.refl _, .refl _⟩
  | some x =>
    rw [hplan] at hi
    cases hplan' : plan? p (t.check s m j) with
    | none =>
      rw [hplan'] at hj
      rw [label_of_plan?_eq_none hj, label_of_plan?_eq_none hplan']
      exact ⟨.refl _, .refl _⟩
    | some y =>
      rw [hplan'] at hj
      have hne : x.target ≠ y.target := by
        intro hxy
        exact hapart x.target ⟨target_of_plan? hplan, hxy ▸ target_of_plan? hplan'⟩
      rw [label_of_plan? hi, label_of_plan? hj, label_of_plan? hplan, label_of_plan? hplan']
      exact ⟨s.relabel_comm hne, s.journal_relabel_comm x y⟩

/-- **Labelling is idempotent, and independent labellings commute.** On a reachable snapshot, a slot
that is labelled again with the same options gets the same report, and nothing changes but the
journal. Two slots, each with its own options, that do not lead to the same target may be labelled
in either order: each gets the report that it would get alone, and the snapshots afterwards hold the
same, with the same entries in their journals. -/
theorem label_again_and_apart {s : Snapshot} (h : s.Reachable) (m : Machine) (t : JumpTable) :
    (∀ slot o,
      let once := t.label s m slot o
      let twice := t.label once.2 m slot o
      twice.1 = once.1 ∧ twice.2.SameContents once.2) ∧
    ∀ i j o p, (∀ a, ¬ ((t.check s m i).target = some a ∧ (t.check s m j).target = some a)) →
      let first := t.label s m i o
      let firstThenSecond := t.label first.2 m j p
      let second := t.label s m j p
      let secondThenFirst := t.label second.2 m i o
      secondThenFirst.1 = first.1 ∧ firstThenSecond.1 = second.1 ∧
        firstThenSecond.2.SameContents secondThenFirst.2 ∧
        firstThenSecond.2.journal.Perm secondThenFirst.2.journal := by
  constructor
  · intro slot o
    exact label_twice h.consistent m t slot o
  · intro i j o p hapart
    have hapart' : ∀ a, ¬ ((t.check s m j).target = some a ∧ (t.check s m i).target = some a) :=
      fun a hboth => hapart a hboth.symm
    obtain ⟨hsame, hperm⟩ := label_swap h.consistent o p hapart
    exact ⟨label_fst_after h.consistent hapart', label_fst_after h.consistent hapart, hsame, hperm⟩

/-- Two slots that lead to two functions. -/
def twoCases : Snapshot :=
  .run [.mapWords 0x1000 [0x8001, 0x8010],
    .addFunction ⟨"low", 0x8000, none⟩ 16 ["00008000: BX LR"],
    .addFunction ⟨"high", 0x8010, some "old"⟩ 16 ["00008010: BX LR"]]

/-- The name of the first function is refused, since its pattern is empty, and the functions
touch. -/
theorem label_again_and_apart_twoCases :
    let t : JumpTable := ⟨0x1000, 0x8000, 0x9000⟩
    let o : LabelOptions := { namePattern := "", writesEnabled := true }
    let p : LabelOptions := { writesEnabled := true }
    twoCases.Reachable ∧ (t.check twoCases .arm 0).target = some 0x8000 ∧
      (t.check twoCases .arm 1).target = some 0x8010 ∧
      (t.label (t.label twoCases .arm 0 o).2 .arm 0 o).1 = (t.label twoCases .arm 0 o).1 ∧
      (t.label (t.label twoCases .arm 1 p).2 .arm 0 o).1 = (t.label twoCases .arm 0 o).1 ∧
      (t.label (t.label twoCases .arm 0 o).2 .arm 1 p).2.SameContents
        (t.label (t.label twoCases .arm 1 p).2 .arm 0 o).2 := by
  intro t o p
  have hreach : twoCases.Reachable := Snapshot.reachable_run _
  have hlow : (t.check twoCases .arm 0).target = some 0x8000 := by decide +kernel
  have hhigh : (t.check twoCases .arm 1).target = some 0x8010 := by decide +kernel
  obtain ⟨htwice, hswap⟩ := label_again_and_apart hreach .arm t
  have hapart : ∀ a,
      ¬ ((t.check twoCases .arm 0).target = some a ∧
        (t.check twoCases .arm 1).target = some a) := by
    intro a ⟨ha, ha'⟩
    cases hlow.symm.trans ha
    cases hhigh.symm.trans ha'
  obtain ⟨hfirst, -, hsame, -⟩ := hswap 0 1 o p hapart
  exact ⟨hreach, hlow, hhigh, (htwice 0 o).1, hfirst, hsame⟩

end JumpTable

end FirmScan
