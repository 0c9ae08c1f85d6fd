import FirmScan.Access.Remarks
import FirmScan.JumpTable.MachineRequest
import FirmScan.Snapshot

/-!
# The journal accounts for every change

An analysis changes a snapshot by write calls only, and a snapshot enters each write call into its
journal, refused calls included.

**Theorem (`journal_accounts`).** Whatever is analysed, the journal only grows, and making the new
write calls again on the snapshot from before gives the snapshot from after. What a single analysis
adds is bounded by its kind and its options (`Analysis.Permits`).

The proof shows for each analysis which write calls it makes: its outcome is the `replay` of a list
of edits (`exists_replay_after`). Since a replay enters exactly its edits (`journal_replay`), the
journal has no say in the matter, and replays of replays compose over a sequence of analyses.
-/

namespace FirmScan

namespace Snapshot

/-! ## Replay -/

/-- Make the write call of an entry of a journal. -/
def edit (s : Snapshot) : Edit → Snapshot
  | .rename a name => (s.rename a name).2
  | .functionComment a text => (s.commentFunction a text).2
  | .lineComment a text => (s.commentLine a text).2

/-- Make the write calls of a part of a journal, in order. -/
def replay (s : Snapshot) (edits : List Edit) : Snapshot := edits.foldl edit s

theorem journal_edit (s : Snapshot) (e : Edit) : (s.edit e).journal = s.journal ++ [e] := by
  cases e with
  | rename a name =>
    simp only [edit, rename]
    split <;> rfl
  | functionComment a text =>
    simp only [edit, commentFunction]
    split <;> rfl
  | lineComment a text =>
    simp only [edit, commentLine]
    split <;> rfl

/-- A replay enters its edits, made or refused, and nothing else. -/
theorem journal_replay (s : Snapshot) (edits : List Edit) :
    (s.replay edits).journal = s.journal ++ edits := by
  induction edits generalizing s with
  | nil => exact (List.append_nil _).symm
  | cons e edits ih =>
    show ((s.edit e).replay edits).journal = _
    rw [ih, journal_edit, List.append_assoc, List.singleton_append]

theorem replay_append (s : Snapshot) (edits edits' : List Edit) :
    s.replay (edits ++ edits') = (s.replay edits).replay edits' :=
  List.foldl_append

/-! ## The write calls of an analysis -/

/-- Labelling writes nothing or, with leave to write, the two labels of one function. This holds
whatever was found out about the slot. -/
theorem labelChecked_replay (s : Snapshot) (o : LabelOptions) (r : SlotReport) :
    (JumpTable.labelChecked s o r).2 = s ∨
      o.dryRun = false ∧ o.writesEnabled = true ∧ ∃ a name text,
        (JumpTable.labelChecked s o r).2 = s.replay [.rename a name, .functionComment a text] := by
  rw [JumpTable.labelChecked]
  cases r.labelTarget? with
  | none => exact Or.inl rfl
  | some target =>
    cases hdry : o.dryRun with
    | true => exact Or.inl rfl
    | false =>
      cases hon : o.writesEnabled with
      | false => exact Or.inl rfl
      | true =>
        cases hfill : JumpTable.fillPatterns o r.slot target with
        | error p => exact Or.inl (by simp [hfill])
        | ok texts =>
          refine Or.inr ⟨rfl, rfl, target, texts.1, texts.2, ?_⟩
          simp only [hfill]
          rfl

/-- Comments on samples are written one by one. -/
theorem writeComments_replay (s : Snapshot) (samples : List Sample) :
    (Remarks.writeComments s samples).2 =
      s.replay (samples.map fun sample => .lineComment sample.address sample.comment) := by
  induction samples generalizing s with
  | nil => rfl
  | cons sample samples ih => exact ih (s.commentLine sample.address sample.comment).2

theorem annotate_replay (s : Snapshot) (function : Address) (o : AnnotateOptions) :
    (Remarks.annotate s function o).2 = s ∨
      o.mayWrite = true ∧ ∃ samples : List Sample, samples.length ≤ o.maxSamples ∧
        (Remarks.annotate s function o).2 =
          s.replay (samples.map fun sample => .lineComment sample.address sample.comment) := by
  rw [Remarks.annotate]
  split
  · exact Or.inl rfl
  · cases hwrite : o.mayWrite with
    | false => exact Or.inl rfl
    | true =>
      refine Or.inr
        ⟨rfl, Remarks.samples o (Survey.ofListing (Disassembler.listing s function)).operations, ?_,
        writeComments_replay s _⟩
      rw [Remarks.samples, List.length_map]
      exact List.length_take_le ..

end Snapshot

/-! ## Analyses -/

/-- A question about a snapshot, or a request to write down what was found. -/
inductive Analysis where
  | check (q : MachineRequest) (t : JumpTable) (slot : UInt32)
  | scan (q : MachineRequest) (t : JumpTable) (start count : UInt32)
  | label (q : MachineRequest) (t : JumpTable) (slot : UInt32) (o : LabelOptions)
  | annotate (function : Address) (o : AnnotateOptions)

/-- What an analysis may add to the journal. -/
def Analysis.Permits (edits : List Edit) : Analysis → Prop
  | .check .. => edits = []
  | .scan .. => edits = []
  | .label _ _ _ o =>
    (o.dryRun = true ∨ o.writesEnabled = false → edits = []) ∧
      (edits = [] ∨ ∃ a name text, edits = [.rename a name, .functionComment a text])
  | .annotate _ o =>
    (o.dryRun = true ∨ o.writesEnabled = false → edits = []) ∧ edits.length ≤ o.maxSamples ∧
      ∀ e ∈ edits, ∃ a text, e = .lineComment a text

namespace Snapshot

/-- The snapshot after an analysis. Checks only read, and a fault comes before the first write. -/
def after (s : Snapshot) : Analysis → Snapshot
  | .check .. => s
  | .scan .. => s
  | .label q t slot o =>
    match q.label s t slot o with
    | .ok (_, s') => s'
    | .error _ => s
  | .annotate function o => (Remarks.annotate s function o).2

/-- The snapshot after a sequence of analyses. -/
def afterAll (s : Snapshot) (analyses : List Analysis) : Snapshot := analyses.foldl after s

theorem exists_replay_label (s : Snapshot) (q : MachineRequest) (t : JumpTable) (slot : UInt32)
    (o : LabelOptions) :
    ∃ edits, (Analysis.label q t slot o).Permits edits ∧
      s.after (.label q t slot o) = s.replay edits := by
  have hnone : (Analysis.label q t slot o).Permits [] := ⟨fun _ => rfl, Or.inl rfl⟩
  cases hcheck : q.check s t slot with
  | error fault =>
    refine ⟨[], hnone, ?_⟩
    simp [after, MachineRequest.label, hcheck, Except.map, replay]
  | ok r =>
    have hafter : s.after (.label q t slot o) = (JumpTable.labelChecked s o r).2 := by
      simp [after, MachineRequest.label, hcheck, Except.map]
    rw [hafter]
    rcases labelChecked_replay s o r with hsame | ⟨hdry, hon, a, name, text, hreplay⟩
    · exact ⟨[], hnone, hsame⟩
    · refine ⟨_, ⟨?_, Or.inr ⟨a, name, text, rfl⟩⟩, hreplay⟩
      rintro (hdry' | hoff)
      · cases hdry.symm.trans hdry'
      · cases hon.symm.trans hoff

theorem exists_replay_annotate (s : Snapshot) (function : Address) (o : AnnotateOptions) :
    ∃ edits, (Analysis.annotate function o).Permits edits ∧
      s.after (.annotate function o) = s.replay edits := by
  rcases annotate_replay s function o with hsame | ⟨hwrite, samples, hlength, hreplay⟩
  · refine ⟨[], ⟨fun _ => rfl, Nat.zero_le _, fun e he => ?_⟩, hsame⟩
    cases he
  · refine ⟨_, ⟨?_, by rwa [List.length_map], fun e he => ?_⟩, hreplay⟩
    · rintro (hdry | hoff)
      · simp [AnnotateOptions.mayWrite, hdry] at hwrite
      · simp [AnnotateOptions.mayWrite, hoff] at hwrite
    · obtain ⟨sample, -, rfl⟩ := List.mem_map.1 he
      exact ⟨_, _, rfl⟩

/-- **Step.** An analysis leaves the replay of edits that it is permitted to make. -/
theorem exists_replay_after (s : Snapshot) (x : Analysis) :
    ∃ edits, x.Permits edits ∧ s.after x = s.replay edits := by
  cases x with
  | check q t slot => exact ⟨[], rfl, rfl⟩
  | scan q t start count => exact ⟨[], rfl, rfl⟩
  | label q t slot o => exact exists_replay_label s q t slot o
  | annotate function o => exact exists_replay_annotate s function o

/-- **Run.** A sequence of analyses leaves the replay of some edits. -/
theorem exists_replay_afterAll (s : Snapshot) (analyses : List Analysis) :
    ∃ edits, s.afterAll analyses = s.replay edits := by
  induction analyses generalizing s with
  | nil => exact ⟨[], rfl⟩
  | cons x analyses ih =>
    obtain ⟨edits, -, hx⟩ := exists_replay_after s x
    obtain ⟨edits', hrest⟩ := ih (s.after x)
    refine ⟨edits ++ edits', ?_⟩
    show (s.after x).afterAll analyses = _
    rw [hrest, hx, replay_append]

/-- **The journal is complete.** After any analyses it is the old journal and new entries behind it,
and the write calls of the new entries, made again on the old snapshot, lead to the same snapshot.
Each further analysis adds what its kind and options permit. -/
theorem journal_accounts (s : Snapshot) (analyses : List Analysis) :
    (∃ edits, (s.afterAll analyses).journal = s.journal ++ edits ∧
      (s.replay edits).segments = (s.afterAll analyses).segments ∧
      (s.replay edits).functions = (s.afterAll analyses).functions ∧
      (s.replay edits).lineComments = (s.afterAll analyses).lineComments) ∧
    ∀ x, ∃ edits, x.Permits edits ∧
      ((s.afterAll analyses).after x).journal = (s.afterAll analyses).journal ++ edits := by
  constructor
  · obtain ⟨edits, hreplay⟩ := exists_replay_afterAll s analyses
    rw [hreplay]
    exact ⟨edits, journal_replay s edits, rfl, rfl, rfl⟩
  · intro x
    obtain ⟨edits, hpermits, hreplay⟩ := exists_replay_after (s.afterAll analyses) x
    rw [hreplay]
    exact ⟨edits, hpermits, journal_replay _ edits⟩

end Snapshot

end FirmScan
