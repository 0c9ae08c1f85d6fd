import FirmScan.Disassembler.Interposed
import FirmScan.JumpTable.Label
import FirmScan.Proofs.Disassembler.Recorded
import FirmScan.Proofs.JumpTable.Check

/-!
# What labelling writes, and what it claims to have written

Nothing is assumed here of the disassembler: it may refuse writes, pretend to make them, make
others, or forget its functions.

**Writing** (`label_write_calls`). Labelling asks for no write at all, or for a renaming and then a
comment. It asks for both exactly when all the conditions collected in `Labels` hold, and otherwise
it leaves the state alone.

**Reading back** (`label_confirmed_iff`). Labels that were written are reported without a problem
exactly when both writes were acknowledged and the function that is read back at the end shows them.
The name in the report is the one that was read, never the one that was asked for.

Both follow from one case analysis (`label_cases`): labelling is `writeLabels` if the conditions
hold, and a report about the state as it was if they do not.
-/

namespace FirmScan

universe u

/-! ## Texts inside texts -/

theorem Text.occurs_iff {part cs : List Char} : Text.occurs part cs ↔ part <:+: cs := by
  induction cs with
  | nil => simp [occurs]
  | cons c cs ih => simp [occurs, List.infix_cons_iff, ih]

namespace JumpTable

variable {σ : Type u} [Disassembler σ]

/-! ## The conditions for writing -/

/-- What must hold for a slot's target to be labelled with a name and a comment: the slot was found
to be in order and leads to an address other than 0, writing is asked for and enabled, and both
patterns can be filled in. -/
structure Labels (s : σ) (m : Machine) (t : JumpTable) (slot : UInt32) (o : LabelOptions)
    (target : Address) (name comment : String) : Prop where
  in_order : (t.check s m slot).problems = []
  leads : (t.check s m slot).target = some target
  ne_zero : target ≠ 0
  not_dry : o.dryRun = false
  enabled : o.writesEnabled = true
  named : Template.fill o.namePattern slot target = .ok name
  commented : Template.fill o.commentPattern slot target = .ok comment

theorem labelTarget?_eq_some_iff {r : SlotReport} {target : Address} :
    r.labelTarget? = some target ↔ r.problems = [] ∧ r.target = some target ∧ target ≠ 0 := by
  rw [SlotReport.labelTarget?]
  by_cases h : r.problems = []
  · simp [h]
  · simp [h]

theorem fillPatterns_eq_ok_iff {o : LabelOptions} {slot : UInt32} {target : Address}
    {name comment : String} :
    fillPatterns o slot target = .ok (name, comment) ↔
      Template.fill o.namePattern slot target = .ok name ∧
        Template.fill o.commentPattern slot target = .ok comment := by
  rw [fillPatterns]
  cases Template.fill o.namePattern slot target with
  | error p => simp [bind, Except.bind]
  | ok n =>
    cases Template.fill o.commentPattern slot target with
    | error p => simp [bind, Except.bind]
    | ok c => simp [bind, Except.bind, pure, Except.pure]

/-- **Labelling, in two cases.** Either the conditions hold and the labels are written, or they fail
for every name and comment and the state is as it was. -/
theorem label_cases (s : σ) (m : Machine) (t : JumpTable) (slot : UInt32) (o : LabelOptions) :
    (∃ target name comment, Labels s m t slot o target name comment ∧
      t.label s m slot o = writeLabels s (t.check s m slot) target name comment) ∨
    ((∀ target name comment, ¬ Labels s m t slot o target name comment) ∧
      (t.label s m slot o).2 = s) := by
  rw [label, labelChecked]
  cases htarget : (t.check s m slot).labelTarget? with
  | none =>
    refine Or.inr ⟨fun target name comment h => ?_, rfl⟩
    have := labelTarget?_eq_some_iff.2 ⟨h.in_order, h.leads, h.ne_zero⟩
    cases htarget.symm.trans this
  | some target =>
    obtain ⟨hproblems, hleads, hne⟩ := labelTarget?_eq_some_iff.1 htarget
    simp only [check_slot]
    by_cases hdry : o.dryRun = true
    · refine Or.inr ⟨fun target name comment h => ?_, by simp [hdry]⟩
      cases hdry.symm.trans h.not_dry
    · by_cases hon : o.writesEnabled = true
      · simp only [hdry, hon]
        cases hfill : fillPatterns o slot target with
        | error p =>
          refine Or.inr ⟨fun target' name comment h => ?_, rfl⟩
          cases hleads.symm.trans h.leads
          have := fillPatterns_eq_ok_iff.2 ⟨h.named, h.commented⟩
          cases hfill.symm.trans this
        | ok texts =>
          obtain ⟨name, comment⟩ := texts
          obtain ⟨hname, hcomment⟩ := fillPatterns_eq_ok_iff.1 hfill
          exact Or.inl ⟨target, name, comment,
            ⟨hproblems, hleads, hne, by simpa using hdry, hon, hname, hcomment⟩, rfl⟩
      · refine Or.inr ⟨fun target name comment h => absurd h.enabled hon, ?_⟩
        simp [hdry, hon]

theorem Labels.unique {s : σ} {m : Machine} {t : JumpTable} {slot : UInt32} {o : LabelOptions}
    {a a' : Address} {n n' c c' : String} (h : Labels s m t slot o a n c)
    (h' : Labels s m t slot o a' n' c') : a = a' ∧ n = n' ∧ c = c' := by
  cases h.leads.symm.trans h'.leads
  cases h.named.symm.trans h'.named
  cases h.commented.symm.trans h'.commented
  exact ⟨rfl, rfl, rfl⟩

theorem label_of_labels {s : σ} {m : Machine} {t : JumpTable} {slot : UInt32} {o : LabelOptions}
    {a : Address} {n c : String} (h : Labels s m t slot o a n c) :
    t.label s m slot o = writeLabels s (t.check s m slot) a n c := by
  rcases label_cases s m t slot o with ⟨a', n', c', h', heq⟩ | ⟨hnot, -⟩
  · obtain ⟨rfl, rfl, rfl⟩ := h.unique h'
    exact heq
  · exact absurd h (hnot a n c)

/-! ## Labelling under a record -/

theorem labels_recorded_iff {d : Recorded σ} {m : Machine} {t : JumpTable} {slot : UInt32}
    {o : LabelOptions} {a : Address} {n c : String} :
    Labels d m t slot o a n c ↔ Labels d.inner m t slot o a n c :=
  ⟨fun h => ⟨h.in_order, h.leads, h.ne_zero, h.not_dry, h.enabled, h.named, h.commented⟩,
    fun h => ⟨h.in_order, h.leads, h.ne_zero, h.not_dry, h.enabled, h.named, h.commented⟩⟩

theorem writeLabels_recorded (d : Recorded σ) (r : SlotReport) (a : Address) (n c : String) :
    writeLabels d r a n c =
      ((writeLabels d.inner r a n c).1,
        ⟨(writeLabels d.inner r a n c).2, d.calls ++ [.rename a n] ++ [.functionComment a c]⟩) :=
  rfl

/-- The record changes neither the report nor the state. -/
theorem label_recorded (d : Recorded σ) (m : Machine) (t : JumpTable) (slot : UInt32)
    (o : LabelOptions) :
    (t.label d m slot o).1 = (t.label d.inner m slot o).1 ∧
      (t.label d m slot o).2.inner = (t.label d.inner m slot o).2 := by
  simp only [label, Recorded.check_eq, labelChecked]
  split
  · exact ⟨rfl, rfl⟩
  · split
    · exact ⟨rfl, rfl⟩
    · split
      · exact ⟨rfl, rfl⟩
      · split
        · exact ⟨rfl, rfl⟩
        · exact ⟨rfl, rfl⟩

theorem calls_label_cases (s : σ) (m : Machine) (t : JumpTable) (slot : UInt32)
    (o : LabelOptions) :
    (∃ a n c, Labels s m t slot o a n c ∧
      (t.label (Recorded.start s) m slot o).2.calls = [.rename a n, .functionComment a c]) ∨
    ((∀ a n c, ¬ Labels s m t slot o a n c) ∧
      (t.label (Recorded.start s) m slot o).2 = Recorded.start s) := by
  rcases label_cases (Recorded.start s) m t slot o with ⟨a, n, c, h, heq⟩ | ⟨hnot, hstate⟩
  · refine Or.inl ⟨a, n, c, labels_recorded_iff.1 h, ?_⟩
    rw [heq, writeLabels_recorded]
    rfl
  · exact Or.inr ⟨fun a n c h => hnot a n c (labels_recorded_iff.2 h), hstate⟩

/-- **What labelling asks a disassembler to write**, whatever the disassembler answers. The calls
are none, or a renaming and then a comment of the same function; the second exactly under the
conditions of `Labels`. Without them the state is the one that labelling started from. Lines are
never commented, and keeping the record made no difference. -/
theorem label_write_calls (s : σ) (m : Machine) (t : JumpTable) (slot : UInt32)
    (o : LabelOptions) :
    ((t.label (Recorded.start s) m slot o).2.calls = [] ∨
      ∃ a n c, (t.label (Recorded.start s) m slot o).2.calls =
        [.rename a n, .functionComment a c]) ∧
    (∀ a n c, (t.label (Recorded.start s) m slot o).2.calls = [.rename a n, .functionComment a c] ↔
      Labels s m t slot o a n c) ∧
    ((t.label (Recorded.start s) m slot o).2.calls = [] → (t.label s m slot o).2 = s) ∧
    (∀ a text, .lineComment a text ∉ (t.label (Recorded.start s) m slot o).2.calls) ∧
    (t.label (Recorded.start s) m slot o).1 = (t.label s m slot o).1 ∧
    (t.label (Recorded.start s) m slot o).2.inner = (t.label s m slot o).2 := by
  obtain ⟨hreport, hinner⟩ := label_recorded (Recorded.start s) m t slot o
  rcases calls_label_cases s m t slot o with ⟨a, n, c, h, hcalls⟩ | ⟨hnot, hstate⟩
  · refine ⟨Or.inr ⟨a, n, c, hcalls⟩, fun a' n' c' => ?_, fun hnil => ?_, by simp [hcalls],
      hreport, hinner⟩
    · rw [hcalls]
      constructor
      · intro heq
        cases heq
        exact h
      · intro h'
        obtain ⟨rfl, rfl, rfl⟩ := h.unique h'
        rfl
    · rw [hcalls] at hnil
      cases hnil
  · have hcalls : (t.label (Recorded.start s) m slot o).2.calls = [] := by
      rw [hstate]
      rfl
    refine ⟨Or.inl hcalls, fun a n c => ?_, fun _ => ?_, by simp [hcalls], hreport, hinner⟩
    · rw [hcalls]
      exact ⟨fun heq => absurd heq (by simp), fun h => absurd h (hnot a n c)⟩
    · rw [hstate] at hinner
      exact hinner.symm

/-! ## Reading back -/

/-- The function shows the labels: it has the name, and the comment stands somewhere in its
comment. -/
def Shows (f : FunctionInfo) (name comment : String) : Prop :=
  f.name = name ∧ ∃ text, f.comment = some text ∧ comment.toList <:+: text.toList

theorem commentPresent_shown_iff {f : FunctionInfo} {comment : String} :
    (shown comment (some f)).commentPresent ↔
      ∃ text, f.comment = some text ∧ comment.toList <:+: text.toList := by
  cases h : f.comment with
  | none => simp [shown, h]
  | some text => simp [shown, h, Text.occurs_iff]

/-- What is wrong with the function that was read back, as far as the writes were acknowledged. -/
def discrepancies (name comment : String) (w : WriteAnswers) : Option FunctionInfo → List String
  | none => ["function metadata missing after write"]
  | some f =>
    (if w.renamed && f.name ≠ name then
      ["read-back name " ++ Text.quoted f.name ++ " does not match " ++ Text.quoted name]
    else [])
      ++ (if w.commented && !(shown comment (some f)).commentPresent then
        ["read-back comment missing"]
      else [])

/-- After two acknowledged writes, nothing is wrong exactly when the function shows the labels. -/
theorem discrepancies_eq_nil_iff {name comment : String} {found : Option FunctionInfo} :
    discrepancies name comment ⟨true, true⟩ found = [] ↔
      ∃ f, found = some f ∧ Shows f name comment := by
  cases found with
  | none => simp [discrepancies]
  | some f =>
    simp only [Option.some.injEq, exists_eq_left', Shows, ← commentPresent_shown_iff]
    by_cases hname : f.name = name
    · cases hpresent : (shown comment (some f)).commentPresent with
      | false => simp [discrepancies, hname, hpresent]
      | true => simp [discrepancies, hname, hpresent]
    · simp [discrepancies, hname]

theorem name_shown (comment : String) (found : Option FunctionInfo) :
    (shown comment found).name = found.map (·.name) := by
  cases found <;> rfl

/-- The problem that two writes and the function read back after them give rise to, if any. -/
theorem unconfirmed_iff {name comment : String} {renamed commented : Bool}
    {found : Option FunctionInfo} :
    (renamed && commented &&
        (discrepancies name comment ⟨renamed, commented⟩ found).isEmpty) = true ↔
      renamed = true ∧ commented = true ∧ ∃ f, found = some f ∧ Shows f name comment := by
  rw [← discrepancies_eq_nil_iff]
  cases renamed <;> cases commented <;> simp

/-- A report with notes, and with the one problem that labels may have. -/
def judged (r : SlotReport) (notes : List String) (confirmed : Bool) : SlotReport :=
  { r with notes := r.notes ++ notes, problems := if confirmed then [] else [.unconfirmed] }

/-- Where the problem is entered that is there already, nothing is entered. -/
theorem pushUnique_judged (r : SlotReport) (notes : List String) (confirmed : Bool) :
    (judged r notes confirmed).pushUnique .unconfirmed = judged r notes false := by
  cases confirmed <;> simp [judged, SlotReport.pushUnique]

theorem withNote_judged (r : SlotReport) (notes : List String) (confirmed : Bool) (note : String) :
    (judged r notes confirmed).withNote note = judged r (notes ++ [note]) confirmed := by
  simp [judged, SlotReport.withNote]

/-- Reading back adds the discrepancies, and the problem if there is one. -/
theorem confirm_judged (r : SlotReport) (confirmed : Bool) (name comment : String)
    (w : WriteAnswers) (found : Option FunctionInfo) :
    confirm (judged r [] confirmed) name comment w found =
      judged r (discrepancies name comment w found)
        (confirmed && (discrepancies name comment w found).isEmpty) := by
  cases found with
  | none => simp [confirm, discrepancies, withNote_judged, pushUnique_judged]
  | some f =>
    by_cases hname : (w.renamed && f.name ≠ name) = true <;>
      by_cases hcomment : (w.commented && !(shown comment (some f)).commentPresent) = true <;>
      simp only [confirm, discrepancies, hname, hcomment, if_true, if_false, Bool.false_eq_true,
        withNote_judged, pushUnique_judged, List.nil_append, List.append_nil, List.isEmpty_nil,
        Bool.and_true, List.isEmpty_cons, List.cons_append, Bool.and_false]

/-- **The five places where a problem may be entered** make one condition: a slot without problems
has one in the end exactly if a write was not acknowledged or the function read back differs. -/
theorem writeLabels_eq (s : σ) {r : SlotReport} (hr : r.problems = []) (target : Address)
    (name comment : String) :
    let renamed := Disassembler.rename s target name
    let commented := Disassembler.commentFunction renamed.2 target comment
    let found := Disassembler.functionAt? commented.2 target
    let notes := discrepancies name comment ⟨renamed.1, commented.1⟩ found
    writeLabels s r target name comment =
      (⟨judged r notes (renamed.1 && commented.1 && notes.isEmpty), ⟨renamed.1, commented.1⟩,
        shown comment found⟩, commented.2) := by
  intro renamed commented found notes
  have hstart : judged r [] true = r := by
    rw [judged, List.append_nil, if_pos rfl, ← hr]
  have hfirst : (if renamed.1 then r else r.pushUnique .unconfirmed) = judged r [] renamed.1 := by
    rw [← hstart, pushUnique_judged, hstart]
    cases renamed.1
    · rfl
    · exact hstart.symm
  have hsecond : (if commented.1 then judged r [] renamed.1
      else (judged r [] renamed.1).pushUnique .unconfirmed) =
        judged r [] (renamed.1 && commented.1) := by
    rw [pushUnique_judged]
    cases commented.1
    · rw [Bool.and_false]
      rfl
    · rw [Bool.and_true]
      rfl
  have hconfirm := confirm_judged r (renamed.1 && commented.1) name comment
    ⟨renamed.1, commented.1⟩ found
  rw [← hsecond, ← hfirst] at hconfirm
  exact congrArg (fun r => ((⟨r, ⟨renamed.1, commented.1⟩, shown comment found⟩ : LabelReport),
    commented.2)) hconfirm

/-- **Labels are confirmed by what is read back.** When labels are written, the report is without a
problem exactly if both writes were acknowledged and the function at the target, looked up after
both, shows the labels; if not, the one problem is that they are unconfirmed. The name in the report
is that of the function looked up. All else that the report says of the slot is what the check
said. -/
theorem label_confirmed_iff {s : σ} {m : Machine} {t : JumpTable} {slot : UInt32}
    {o : LabelOptions} {target : Address} {name comment : String}
    (h : Labels s m t slot o target name comment) :
    let renamed := Disassembler.rename s target name
    let commented := Disassembler.commentFunction renamed.2 target comment
    let found := Disassembler.functionAt? commented.2 target
    let report := (t.label s m slot o).1
    let checked := t.check s m slot
    (report.slot.problems = [] ↔
      renamed.1 = true ∧ commented.1 = true ∧ ∃ f, found = some f ∧ Shows f name comment) ∧
    (report.slot.problems ≠ [] → report.slot.problems = [.unconfirmed]) ∧
    report.readBack.name = found.map (·.name) ∧
    report.slot.slot = checked.slot ∧ report.slot.address = checked.address ∧
    report.slot.raw = checked.raw ∧ report.slot.mode = checked.mode ∧
    report.slot.target = checked.target ∧
    (t.label s m slot o).2 = commented.2 := by
  intro renamed commented found report checked
  have hlabel := (label_of_labels h).trans (writeLabels_eq s h.in_order target name comment)
  have hproblems : report.slot.problems =
      if renamed.1 && commented.1 &&
          (discrepancies name comment ⟨renamed.1, commented.1⟩ found).isEmpty
      then [] else [.unconfirmed] := by
    show (t.label s m slot o).1.slot.problems = _
    rw [hlabel]
    rfl
  have hname : report.readBack.name = found.map (·.name) := by
    show (t.label s m slot o).1.readBack.name = _
    rw [hlabel]
    exact name_shown comment found
  refine ⟨?_, ?_, hname, ?_⟩
  · rw [hproblems, ← unconfirmed_iff]
    split
    · rename_i hok
      exact ⟨fun _ => hok, fun _ => rfl⟩
    · rename_i hok
      exact ⟨fun heq => absurd heq (by simp), fun hok' => absurd hok' hok⟩
  · rw [hproblems]
    intro hne
    split
    · rename_i hok
      rw [if_pos hok] at hne
      exact absurd rfl hne
    · rfl
  · show (t.label s m slot o).1.slot.slot = _ ∧ (t.label s m slot o).1.slot.address = _ ∧
      (t.label s m slot o).1.slot.raw = _ ∧ (t.label s m slot o).1.slot.mode = _ ∧
      (t.label s m slot o).1.slot.target = _ ∧ _
    rw [hlabel]
    exact ⟨rfl, rfl, rfl, rfl, rfl, rfl⟩

/-- One function at 0x8000, to which a Thumb pointer leads, behind a disassembler that only pretends
to rename it. -/
def pretender : Interposed Snapshot where
  inner :=
    ⟨[⟨0x2000, 0x2004, [0x01, 0x80, 0x00, 0x00]⟩],
      ⟨[(0x8000, ⟨⟨"handler", 0x8000, none⟩, 0x8010, ["00008000: BX LR"]⟩)],
        List.pairwise_singleton ..⟩, .empty, []⟩
  renames := .pretend

theorem label_pretender :
    let report :=
      ((⟨0x2000, 0x8000, 0x9000⟩ : JumpTable).label pretender .arm 0 { writesEnabled := true }).1
    report.slot.problems = [.unconfirmed] ∧ report.readBack.name = some "handler" ∧
      report.slot.target = some 0x8000 := by
  have h : Labels pretender .arm ⟨0x2000, 0x8000, 0x9000⟩ 0 { writesEnabled := true } 0x8000
      "jt_case_0_00008000" "jump table slot 0 -> 0x00008000" :=
    ⟨rfl, rfl, by decide, rfl, rfl, rfl, rfl⟩
  obtain ⟨hiff, hunconfirmed, hname, -, -, -, -, htarget, -⟩ := label_confirmed_iff h
  refine ⟨hunconfirmed fun hnil => ?_, hname.trans rfl, htarget.trans rfl⟩
  obtain ⟨-, -, f, hfound, hshown, -⟩ := hiff.1 hnil
  cases hfound
  exact absurd hshown (by decide)

end JumpTable

end FirmScan
