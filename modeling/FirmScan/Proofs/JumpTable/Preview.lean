import FirmScan.Proofs.JumpTable.Labelling

/-!
# The preview tells the truth

A dry run of labelling looks at the function that a slot leads to and says what it would be called.
It is compared here with a run that writes, from the same state of any disassembler.

**What both report** (`labelChecked_shows`). The options decide what is written and what is noted.
What a report says of the slot, its word and its target is decided by the check alone, and both runs
make the same check.

**Theorem (`preview_tells_truth`).** A dry run changes nothing. It agrees with the other run about
the slot, and is equal to it if the slot cannot be labelled. A name that the other run writes is the
name that the dry run announces.

The converse of the last sentence fails: a comment pattern that cannot be filled in keeps the
function from being renamed, and the dry run does not look at it.
-/

namespace FirmScan

universe u

namespace JumpTable

variable {σ : Type u} [Disassembler σ]

/-! ## Slots that cannot be labelled -/

theorem labelChecked_of_labelTarget?_eq_none {r : SlotReport} (h : r.labelTarget? = none) (s : σ)
    (o : LabelOptions) :
    labelChecked s o r = (⟨r.withoutTarget, {}, {}⟩, s) := by
  rw [labelChecked, h]

/-- A slot is not labelled if its check fails or leads to address 0. -/
theorem labelTarget?_check_eq_none_iff {s : σ} {m : Machine} {t : JumpTable} {slot : UInt32} :
    (t.check s m slot).labelTarget? = none ↔
      (t.check s m slot).problems ≠ [] ∨ (t.check s m slot).target = some 0 := by
  rcases check_cases s m t slot with ⟨raw, notes, problem, h⟩ | ⟨w, e, notes, -, -, h⟩
  · simp [h, failure, SlotReport.labelTarget?]
  · simp [h, SlotReport.labelTarget?]

/-- One problem says why a slot is not labelled. -/
theorem length_problems_withoutTarget (s : σ) (m : Machine) (t : JumpTable) (slot : UInt32) :
    (t.check s m slot).withoutTarget.problems.length = 1 := by
  rcases check_cases s m t slot with ⟨raw, notes, problem, h⟩ | ⟨w, e, notes, -, -, h⟩
  · simp [h, failure, SlotReport.withoutTarget]
  · simp [h, SlotReport.withoutTarget]

/-! ## What the options do not decide -/

/-- The same slot with the same word and the same target. -/
structure SameSlot (r r' : SlotReport) : Prop where
  slot : r.slot = r'.slot
  address : r.address = r'.address
  raw : r.raw = r'.raw
  mode : r.mode = r'.mode
  target : r.target = r'.target

/-- **What a report says of a slot** is what the check found, or that there is nothing to label. -/
theorem labelChecked_shows (s : σ) (o : LabelOptions) (r : SlotReport) :
    SameSlot (labelChecked s o r).1.slot
      (if r.labelTarget?.isSome then r else r.withoutTarget) := by
  cases htarget : r.labelTarget? with
  | none =>
    rw [labelChecked_of_labelTarget?_eq_none htarget]
    exact ⟨rfl, rfl, rfl, rfl, rfl⟩
  | some a =>
    simp only [labelChecked, htarget]
    by_cases hdry : o.dryRun
    · simp only [hdry, if_true]
      exact ⟨rfl, rfl, rfl, rfl, rfl⟩
    · by_cases hon : o.writesEnabled
      · simp only [hdry, hon]
        cases fillPatterns o r.slot a with
        | error p => exact ⟨rfl, rfl, rfl, rfl, rfl⟩
        | ok texts =>
          show SameSlot (writeLabels s r a texts.1 texts.2).1.slot r
          rw [writeLabels_eq s (labelTarget?_eq_some_iff.1 htarget).1]
          exact ⟨rfl, rfl, rfl, rfl, rfl⟩
      · simp only [hdry, hon]
        exact ⟨rfl, rfl, rfl, rfl, rfl⟩

theorem SameSlot.of_common {r r' q : SlotReport} (h : SameSlot r q) (h' : SameSlot r' q) :
    SameSlot r r' :=
  ⟨h.slot.trans h'.slot.symm, h.address.trans h'.address.symm, h.raw.trans h'.raw.symm,
    h.mode.trans h'.mode.symm, h.target.trans h'.target.symm⟩

/-! ## Dry runs -/

theorem labelChecked_snd_of_dryRun (s : σ) {o : LabelOptions} (hdry : o.dryRun = true)
    (r : SlotReport) :
    (labelChecked s o r).2 = s := by
  rw [labelChecked]
  cases r.labelTarget? with
  | none => rfl
  | some a => simp [hdry]

theorem label_of_dryRun {s : σ} {m : Machine} {t : JumpTable} {slot : UInt32} {o : LabelOptions}
    {a : Address} (hdry : o.dryRun = true) (h : (t.check s m slot).labelTarget? = some a) :
    t.label s m slot o = (preview s o (t.check s m slot) a, s) := by
  rw [label, labelChecked, h]
  simp [hdry]

theorem name_preview (s : σ) (o : LabelOptions) (r : SlotReport) (a : Address) :
    (preview s o r a).readBack.name = (Disassembler.functionAt? s a).map (·.name) := by
  rw [preview]
  cases Disassembler.functionAt? s a with
  | none => rfl
  | some f => rfl

/-- What a preview shows of a name that can be filled in. -/
theorem preview_of_fill {s : σ} {o : LabelOptions} {r : SlotReport} {a : Address} {n : String}
    (hname : Template.fill o.namePattern r.slot a = .ok n) :
    (preview s o r a).slot = { r with notes := r.notes ++ ["dry run: would rename to " ++ n] } ∧
      (preview s o r a).readBack.name = (Disassembler.functionAt? s a).map (·.name) := by
  refine ⟨?_, name_preview s o r a⟩
  rw [preview, hname]

/-- **The preview tells the truth.** A dry run, with writing enabled or not, leaves the state alone
and says the same of the slot as the run that writes. If the check fails or leads to 0, both runs
are the same: without mode and target, and with one problem. If the run that writes asks for a name,
the dry run has no problem, announces this very name in its last note, and shows the name that the
function had before. -/
theorem preview_tells_truth (s : σ) (m : Machine) (t : JumpTable) (slot : UInt32)
    (o : LabelOptions) :
    let checked := t.check s m slot
    let writing : LabelOptions := { o with dryRun := false, writesEnabled := true }
    let dry := t.label s m slot { o with dryRun := true }
    let wet := t.label s m slot writing
    dry.2 = s ∧ SameSlot dry.1.slot wet.1.slot ∧
    (checked.problems ≠ [] ∨ checked.target = some 0 →
      dry = wet ∧ dry.1.slot.mode = none ∧ dry.1.slot.target = none ∧
        dry.1.slot.problems.length = 1) ∧
    ∀ a n, .rename a n ∈ (t.label (Recorded.start s) m slot writing).2.calls →
      dry.1.slot.problems = [] ∧
      dry.1.slot.notes.getLast? = some ("dry run: would rename to " ++ n) ∧
      dry.1.readBack.name = (Disassembler.functionAt? s a).map (·.name) := by
  intro checked writing dry wet
  refine ⟨labelChecked_snd_of_dryRun s rfl checked,
    (labelChecked_shows s _ checked).of_common (labelChecked_shows s _ checked),
    fun hfails => ?_, fun a n hcall => ?_⟩
  · have hnone := labelTarget?_check_eq_none_iff.2 hfails
    have hdry : dry = (⟨checked.withoutTarget, {}, {}⟩, s) :=
      labelChecked_of_labelTarget?_eq_none hnone s _
    have hwet : wet = (⟨checked.withoutTarget, {}, {}⟩, s) :=
      labelChecked_of_labelTarget?_eq_none hnone s _
    rw [hdry]
    exact ⟨hwet.symm, rfl, rfl, length_problems_withoutTarget s m t slot⟩
  · rcases calls_label_cases s m t slot writing with ⟨a', n', c, hlabels, hcalls⟩ | ⟨-, hstate⟩
    · rw [hcalls] at hcall
      obtain ⟨rfl, rfl⟩ : a = a' ∧ n = n' := by simpa using hcall
      have htarget := labelTarget?_eq_some_iff.2 ⟨hlabels.in_order, hlabels.leads, hlabels.ne_zero⟩
      have hdry : dry = (preview s { o with dryRun := true } checked a, s) :=
        label_of_dryRun rfl htarget
      have hname : Template.fill o.namePattern checked.slot a = .ok n := by
        rw [check_slot]
        exact hlabels.named
      obtain ⟨hslot, hread⟩ := preview_of_fill (s := s) (o := { o with dryRun := true }) hname
      rw [hdry]
      refine ⟨?_, ?_, hread⟩
      · rw [hslot]
        exact hlabels.in_order
      · rw [hslot]
        exact List.getLast?_concat
    · rw [hstate] at hcall
      cases hcall

end JumpTable

end FirmScan
