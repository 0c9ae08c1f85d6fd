import FirmScan.Proofs.JumpTable.Preview
import FirmScan.Proofs.JumpTable.Relabelling
import FirmScan.Proofs.Report.Table
import FirmScan.Proofs.Template.Grammar

/-!
# Records of labelled slots

The report on a labelled slot can be printed as a record: one line of six cells. Two of the cells
can hold a text that is not the library's own, and it is printed as it is. The problems may quote a
field of a pattern, and the name is the one that the function has when it is read back.

**Records** (`Table.IsRecord`). A row is a record of as many cells as were printed exactly if no
cell holds a tab or a line end (`Table.isRecord_columns_iff`).

**Where the texts come from** (`badField_of_mem_labelChecked`, `name_of_label`). A field that is
quoted is a part of a pattern. The name is that of the function at the target or the one that its
pattern gave.

**Theorem (`label_record_iff`).** The line is a record exactly if these two texts are clean. They
are if the patterns are clean and the function has a clean name. Without that the line may break
(`label_record_broken`).
-/

namespace FirmScan

universe u

/-! ## Records -/

namespace Table

/-- One line with `n` cells: its only line end is its last character, and tabs divide the cells. -/
def IsRecord (n : Nat) (text : String) : Prop :=
  text.toList.count '\n' = 1 ∧ text.toList.getLast? = some '\n' ∧
    (text.toList.dropLast.splitOn '\t').length = n

instance (n : Nat) (text : String) : Decidable (IsRecord n text) :=
  inferInstanceAs (Decidable (_ ∧ _ ∧ _))

theorem isRecord_append_iff {n : Nat} {line : String} :
    IsRecord n (line ++ "\n") ↔ '\n' ∉ line.toList ∧ (line.toList.splitOn '\t').length = n := by
  have htext : (line ++ "\n").toList = line.toList ++ ['\n'] := String.toList_append
  rw [IsRecord, htext, List.getLast?_concat, List.dropLast_concat, List.count_append,
    List.count_singleton_self, ← List.count_eq_zero]
  simp

/-- **A row is a record of its cells** exactly if they are clean. -/
theorem isRecord_columns_iff (row : List String) (hne : row ≠ []) :
    IsRecord row.length (Plain.columns row ++ "\n") ↔ ∀ c ∈ row, Clean c := by
  have hcells := (length_flatMap_splitOn '\t' (row.map String.toList)).2
  rw [List.length_map] at hcells
  rw [isRecord_append_iff, newline_mem_columns_iff, splitOn_tab_columns hne, hcells]
  simp [Clean, forall_and, and_comm]

end Table

open Table (Clean)

/-- **The line of a labelled slot** is a record exactly if the texts that it quotes are clean. -/
theorem LabelReport.isRecord_tabular_iff (r : LabelReport) :
    Table.IsRecord 6 r.tabular ↔
      (∀ field, .badField field ∈ r.slot.problems → Clean field) ∧
        ∀ name, r.readBack.name = some name → Clean name := by
  have hproblems : (∀ p ∈ r.slot.problems, Clean p.code) ↔
      ∀ field, .badField field ∈ r.slot.problems → Clean field := by
    simp only [Problem.clean_code_iff]
    exact ⟨fun h field hmem => h _ hmem field rfl, fun h p hp field heq => h field (heq ▸ hp)⟩
  have hname : Clean (r.readBack.name.getD "-") ↔
      ∀ name, r.readBack.name = some name → Clean name := by
    cases r.readBack.name with
    | none => exact ⟨fun _ name h => absurd h (by simp), fun _ => by decide⟩
    | some name => simp
  have hcells := Table.isRecord_columns_iff
    (r.slot.tabularCells ++ [r.readBack.name.getD "-", Plain.flag r.writes.renamed]) (by simp)
  rw [List.forall_mem_append, SlotReport.clean_tabularCells_iff, hproblems] at hcells
  simp only [List.forall_mem_cons, hname, Plain.clean_flag, List.not_mem_nil, false_implies,
    implies_true, and_true] at hcells
  exact hcells

/-! ## Where the texts come from -/

namespace JumpTable

section

variable {σ : Type u} [Disassembler σ]

/-- How the labelling of a checked slot ends. -/
inductive LabelOutcome (s : σ) (o : LabelOptions) (r : SlotReport) : LabelReport × σ → Prop
  | untargeted (h : r.labelTarget? = none) : LabelOutcome s o r (⟨r.withoutTarget, {}, {}⟩, s)
  | previewed {a : Address} (h : r.labelTarget? = some a) : LabelOutcome s o r (preview s o r a, s)
  | disabled :
      LabelOutcome s o r (⟨{ r with problems := r.problems ++ [.writesDisabled] }, {}, {}⟩, s)
  | refused {a : Address} {p : Problem} (h : fillPatterns o r.slot a = .error p) :
    LabelOutcome s o r (⟨{ r with problems := r.problems ++ [p] }, {}, {}⟩, s)
  | written {a : Address} {name comment : String} (h : r.labelTarget? = some a)
    (hfill : fillPatterns o r.slot a = .ok (name, comment)) :
    LabelOutcome s o r (writeLabels s r a name comment)

theorem labelChecked_outcome (s : σ) (o : LabelOptions) (r : SlotReport) :
    LabelOutcome s o r (labelChecked s o r) := by
  rw [labelChecked]
  cases htarget : r.labelTarget? with
  | none => exact .untargeted htarget
  | some a =>
    by_cases hdry : o.dryRun
    · simp only [hdry, if_true]
      exact .previewed htarget
    · by_cases hon : o.writesEnabled
      · simp only [hdry, hon, Bool.not_true, Bool.false_eq_true, if_false]
        cases hfill : fillPatterns o r.slot a with
        | error p => exact .refused hfill
        | ok texts => exact .written htarget hfill
      · simp only [hdry, hon, Bool.not_false, Bool.false_eq_true, if_false, if_true]
        exact .disabled

theorem fill_of_fillPatterns_error {o : LabelOptions} {slot : UInt32} {target : Address}
    {p : Problem} (h : fillPatterns o slot target = .error p) :
    Template.fill o.namePattern slot target = .error p ∨
      Template.fill o.commentPattern slot target = .error p := by
  rw [fillPatterns] at h
  cases hname : Template.fill o.namePattern slot target with
  | error q =>
    rw [hname] at h
    cases h
    exact Or.inl rfl
  | ok name =>
    cases hcomment : Template.fill o.commentPattern slot target with
    | error q =>
      rw [hname, hcomment] at h
      cases h
      exact Or.inr rfl
    | ok comment =>
      rw [hname, hcomment] at h
      cases h

/-- **A field is quoted** only if a pattern could not be filled in on its account. -/
theorem badField_of_mem_labelChecked {s : σ} {o : LabelOptions} {r : SlotReport}
    (hplain : ∀ p ∈ r.problems, p ∈ Problem.plain) {field : String}
    (h : .badField field ∈ (labelChecked s o r).1.slot.problems) :
    ∃ a, Template.fill o.namePattern r.slot a = .error (.badField field) ∨
      Template.fill o.commentPattern r.slot a = .error (.badField field) := by
  have hcheck : .badField field ∉ r.problems := by
    intro hmem
    have hfield := hplain _ hmem
    simp [Problem.plain] at hfield
  have houtcome := labelChecked_outcome s o r
  generalize labelChecked s o r = result at houtcome h
  cases houtcome with
  | untargeted =>
    simp only [SlotReport.withoutTarget] at h
    split at h
    · simp at h
    · exact absurd h hcheck
  | previewed => exact absurd h hcheck
  | disabled => simp [hcheck] at h
  | @refused a p hfill =>
    simp only [List.mem_append, hcheck, false_or, List.mem_singleton] at h
    subst h
    exact ⟨a, fill_of_fillPatterns_error hfill⟩
  | written htarget =>
    rw [writeLabels_eq s (labelTarget?_eq_some_iff.1 htarget).1] at h
    simp only [judged] at h
    split at h <;> simp at h

end

variable {s : Snapshot}

/-- **The name that is read back** is the one that the function had, or the one that it got. -/
theorem name_of_label (hs : s.Consistent) {m : Machine} {t : JumpTable} {slot : UInt32}
    {o : LabelOptions} {name : String} (h : (t.label s m slot o).1.readBack.name = some name) :
    ∃ a, (t.check s m slot).target = some a ∧
      ((∃ f, s.functionAt? a = some f ∧ f.name = name) ∨
        Template.fill o.namePattern slot a = .ok name) := by
  have houtcome := labelChecked_outcome s o (t.check s m slot)
  rw [label] at h
  generalize labelChecked s o (t.check s m slot) = result at houtcome h
  cases houtcome with
  | untargeted => cases h
  | @previewed a htarget =>
    refine ⟨a, (labelTarget?_eq_some_iff.1 htarget).2.1, Or.inl ?_⟩
    rw [name_preview] at h
    exact Option.map_eq_some_iff.1 h
  | disabled => cases h
  | refused => cases h
  | @written a name' comment htarget hfill =>
    obtain ⟨hr, ha, -⟩ := labelTarget?_eq_some_iff.1 htarget
    obtain ⟨f, hf⟩ := hs.exists_get?_target ha
    refine ⟨a, ha, ?_⟩
    rw [writeLabels_fst hs hr ⟨a, name', comment⟩ hf] at h
    -- A name that is empty is refused, and the function keeps its own.
    have hread : (if name' = "" then f.info.name else name') = name := Option.some.inj h
    by_cases hempty : name' = ""
    · rw [if_pos hempty] at hread
      exact Or.inl ⟨f.info, hs.functionAt?_of_get? hf, hread⟩
    · rw [if_neg hempty] at hread
      rw [check_slot, fillPatterns_eq_ok_iff, hread] at hfill
      exact Or.inr hfill.1

/-- Neither a digit nor a space is a tab or a line end. -/
theorem clean_of_fill {pattern text : String} {slot : UInt32} {a : Address}
    (hpattern : Clean pattern) (h : Template.fill pattern slot a = .ok text) : Clean text := by
  have hpart {c : Char} (halpha : c.isAlphanum = false) (hspace : c ≠ ' ') (hc : c ∈ text.toList) :
      c ∈ pattern.toList := by
    rcases Template.mem_of_fillText (Template.fill_eq_ok_iff.1 h) hc with hmem | hdigit | rfl
    · exact hmem
    · rw [halpha] at hdigit
      cases hdigit
    · exact absurd rfl hspace
  exact ⟨fun htab => hpattern.1 (hpart (by decide) (by decide) htab),
    fun hend => hpattern.2 (hpart (by decide) (by decide) hend)⟩

theorem clean_of_fill_error {pattern field : String} {slot : UInt32} {a : Address}
    (hpattern : Clean pattern) (h : Template.fill pattern slot a = .error (.badField field)) :
    Clean field := by
  rw [Template.fill] at h
  cases hfill : Template.fillText slot a pattern.toList with
  | ok cs =>
    rw [hfill] at h
    cases h
  | error cs =>
    rw [hfill] at h
    cases h
    have hpart {c : Char} (hc : c ∈ (String.ofList cs).toList) : c ∈ pattern.toList :=
      Template.mem_of_fillText_error hfill (by rwa [String.toList_ofList] at hc)
    exact ⟨fun hc => hpattern.1 (hpart hc), fun hc => hpattern.2 (hpart hc)⟩

/-! ## Records of labelled slots -/

/-- **The line of a labelled slot is a record exactly if the texts that it quotes are clean**, which
are the field at fault and the name that is read back. They are clean if the patterns are and if the
function at the target has a clean name. -/
theorem label_record_iff {s : Snapshot} (h : s.Reachable) (m : Machine) (t : JumpTable)
    (slot : UInt32) (o : LabelOptions) :
    let r := (t.label s m slot o).1
    (Table.IsRecord 6 r.tabular ↔
      (∀ field, .badField field ∈ r.slot.problems → Clean field) ∧
        ∀ name, r.readBack.name = some name → Clean name) ∧
    (Clean o.namePattern → Clean o.commentPattern →
      (∀ a f, (t.check s m slot).target = some a → s.functionAt? a = some f → Clean f.name) →
      Table.IsRecord 6 r.tabular) := by
  intro r
  refine ⟨r.isRecord_tabular_iff, fun hname hcomment hfunction => r.isRecord_tabular_iff.2 ⟨?_, ?_⟩⟩
  · intro field hfield
    obtain ⟨a, hfault | hfault⟩ := badField_of_mem_labelChecked plain_of_mem_check hfield
    · exact clean_of_fill_error hname hfault
    · exact clean_of_fill_error hcomment hfault
  · intro name hread
    obtain ⟨a, ha, ⟨f, hf, rfl⟩ | hfill⟩ := name_of_label h.consistent hread
    · exact hfunction a f ha hf
    · exact clean_of_fill hname hfill

/-- The labels that are written if nothing else is asked for. -/
theorem label_record_stub :
    let r :=
      ((⟨0x1000, 0x8000, 0x9000⟩ : JumpTable).label Snapshot.stub .arm 0
        { writesEnabled := true }).1
    Snapshot.stub.Reachable ∧ Table.IsRecord 6 r.tabular := by
  intro r
  have hreach : Snapshot.stub.Reachable := Snapshot.reachable_run _
  have htarget : ((⟨0x1000, 0x8000, 0x9000⟩ : JumpTable).check Snapshot.stub .arm 0).target =
      some 0x8000 := by
    decide +kernel
  have hfound : Snapshot.stub.functionAt? 0x8000 = some ⟨"stub", 0x8000, none⟩ := by decide +kernel
  obtain ⟨-, hclean⟩ :=
    label_record_iff hreach .arm ⟨0x1000, 0x8000, 0x9000⟩ 0 { writesEnabled := true }
  refine ⟨hreach, hclean (by decide) (by decide) fun a f ha hf => ?_⟩
  cases htarget.symm.trans ha
  cases hfound.symm.trans hf
  decide

/-- A function with a tab in its name, to which a Thumb pointer leads. -/
def tabbed : Snapshot :=
  .run [.mapWords 0x1000 [0x8001], .addFunction ⟨"a\tb", 0x8000, none⟩ 1 ["00008000: BX LR"]]

/-- Two lines that are no records: a field that is not closed brings its line end, and a function
its name. -/
theorem label_record_broken :
    let t : JumpTable := ⟨0x1000, 0x8000, 0x9000⟩
    let quoted :=
      (t.label Snapshot.stub .arm 0 { namePattern := "\x7ba\nb", writesEnabled := true }).1.tabular
    let named := (t.label tabbed .arm 0 { dryRun := true }).1.tabular
    (Snapshot.stub.Reachable ∧ quoted = "0\t0x00001000\t0x00008000\tFORMAT_ERROR:a\nb\t-\tfalse\n" ∧
      ¬ Table.IsRecord 6 quoted) ∧
    tabbed.Reachable ∧ named = "0\t0x00001000\t0x00008000\tok\ta\tb\tfalse\n" ∧
      ¬ Table.IsRecord 6 named := by
  intro t quoted named
  have hquoted : quoted = "0\t0x00001000\t0x00008000\tFORMAT_ERROR:a\nb\t-\tfalse\n" := by
    decide +kernel
  have hnamed : named = "0\t0x00001000\t0x00008000\tok\ta\tb\tfalse\n" := by decide +kernel
  refine ⟨⟨Snapshot.reachable_run _, hquoted, ?_⟩, Snapshot.reachable_run _, hnamed, ?_⟩
  · rw [hquoted]
    decide
  · rw [hnamed]
    decide

end JumpTable

end FirmScan
