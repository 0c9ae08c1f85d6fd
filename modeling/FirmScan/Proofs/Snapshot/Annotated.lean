import FirmScan.Proofs.Access.Annotating
import FirmScan.Proofs.Snapshot.Journal
import FirmScan.Proofs.Snapshot.Writing

/-!
# The comments that annotating leaves

Annotating a snapshot comments the lines of samples one after another. A comment is accepted
wherever some function contains the line, also if it is not the function that was surveyed, and a
later comment on a line takes the place of an earlier one.

**Theorem (`annotate_leaves_comments`).** A line that a function contains has the comment of the
last sample on it. All other comments are as before, and so are memory and functions. The report
counts the samples that functions contain. To annotate again gives the same report and leaves the
comments as they are.

Two facts about a run of comments give this: it leaves a line alone on which it writes nothing or
where no function is (`lineComment?_writeComments`), and the comment that it writes last on a line
stays (`lineComment?_writeComments_last`). Functions never change, so the second run meets what the
first one met (`annotate_fst_congr`).
-/

namespace FirmScan

/-- The sample is the last one on the line. -/
def Sample.LastOn (samples : List Sample) (x : Address) (sample : Sample) : Prop :=
  sample.address = x ∧
    ∃ before after, samples = before ++ sample :: after ∧ ∀ later ∈ after, later.address ≠ x

theorem Sample.exists_lastOn {samples : List Sample} {x : Address}
    (h : ∃ y ∈ samples, y.address = x) :
    ∃ y, LastOn samples x y := by
  induction samples with
  | nil => simp at h
  | cons z samples ih =>
    by_cases hlater : ∃ y ∈ samples, y.address = x
    · obtain ⟨y, hy, before, after, rfl, hafter⟩ := ih hlater
      exact ⟨y, hy, z :: before, after, rfl, hafter⟩
    · have hz : z.address = x := by
        obtain ⟨y, hy, hyx⟩ := h
        rcases List.mem_cons.1 hy with rfl | hy
        · exact hyx
        · exact absurd ⟨y, hy, hyx⟩ hlater
      exact ⟨z, hz, [], samples, rfl, fun y hy hyx => hlater ⟨y, hy, hyx⟩⟩

namespace Snapshot

/-! ## One comment -/

theorem commentLine_fst (s : Snapshot) (a : Address) (text : String) :
    (s.commentLine a text).1 = (s.functionContaining? a).isSome := by
  rw [Bool.eq_iff_iff]
  exact commentLine_accepted_iff s a text

theorem commentLine_frame (s : Snapshot) (a : Address) (text : String) :
    (s.commentLine a text).2.segments = s.segments ∧
      (s.commentLine a text).2.functions = s.functions := by
  simp only [commentLine]
  split <;> exact ⟨rfl, rfl⟩

theorem lineComment?_commentLine (s : Snapshot) (a : Address) (text : String) (x : Address) :
    (s.commentLine a text).2.lineComment? x =
      if x = a ∧ (s.functionContaining? a).isSome then some text else s.lineComment? x := by
  unfold commentLine
  have hlook : (s.record (.lineComment a text)).functionContaining? a = s.functionContaining? a :=
    rfl
  by_cases hin : (s.functionContaining? a).isSome
  · simp only [hlook, hin, if_true, and_true]
    exact AddressMap.get?_insert s.lineComments a x text
  · simp only [hlook, hin, Bool.false_eq_true, if_false, and_false]
    rfl

theorem functionContaining?_of_functions {s s' : Snapshot} (h : s'.functions = s.functions)
    (x : Address) :
    s'.functionContaining? x = s.functionContaining? x := by
  rw [functionContaining?, functionContaining?, h]

/-! ## Comments on samples -/

open Remarks (writeComments)

theorem writeComments_cons_snd (s : Snapshot) (y : Sample) (samples : List Sample) :
    (writeComments s (y :: samples)).2 =
      (writeComments (s.commentLine y.address y.comment).2 samples).2 := rfl

theorem writeComments_frame (s : Snapshot) (samples : List Sample) :
    (writeComments s samples).2.segments = s.segments ∧
      (writeComments s samples).2.functions = s.functions := by
  induction samples generalizing s with
  | nil => exact ⟨rfl, rfl⟩
  | cons y samples ih =>
    obtain ⟨hsegments, hfunctions⟩ := commentLine_frame s y.address y.comment
    rw [writeComments_cons_snd, (ih _).1, (ih _).2]
    exact ⟨hsegments, hfunctions⟩

theorem writeComments_append_snd (s : Snapshot) (samples samples' : List Sample) :
    (writeComments s (samples ++ samples')).2 =
      (writeComments (writeComments s samples).2 samples').2 := by
  rw [writeComments_replay, writeComments_replay, writeComments_replay, List.map_append,
    replay_append]

theorem writeComments_fst (s : Snapshot) (samples : List Sample) :
    (writeComments s samples).1 =
      samples.countP fun y => (s.functionContaining? y.address).isSome := by
  induction samples generalizing s with
  | nil => rfl
  | cons y samples ih =>
    have hfunctions := functionContaining?_of_functions (commentLine_frame s y.address y.comment).2
    have hcount : (writeComments s (y :: samples)).1 =
        (writeComments (s.commentLine y.address y.comment).2 samples).1 +
          (s.commentLine y.address y.comment).1.toNat := rfl
    rw [hcount, ih, commentLine_fst, List.countP_cons]
    simp only [hfunctions]
    cases (s.functionContaining? y.address).isSome <;> rfl

/-- **Lines that are left alone**: no sample is on them, or no function contains them. -/
theorem lineComment?_writeComments {s : Snapshot} {samples : List Sample} {x : Address}
    (h : ∀ y ∈ samples, y.address = x → s.functionContaining? x = none) :
    (writeComments s samples).2.lineComment? x = s.lineComment? x := by
  induction samples generalizing s with
  | nil => rfl
  | cons y samples ih =>
    obtain ⟨hy, hsamples⟩ := List.forall_mem_cons.1 h
    have hfunctions := functionContaining?_of_functions (commentLine_frame s y.address y.comment).2
    have hrefused : ¬ (x = y.address ∧ (s.functionContaining? y.address).isSome) := by
      rintro ⟨rfl, hsome⟩
      rw [hy rfl] at hsome
      cases hsome
    rw [writeComments_cons_snd, ih (by simpa only [hfunctions] using hsamples),
      lineComment?_commentLine, if_neg hrefused]

/-- **The last comment on a line stays.** -/
theorem lineComment?_writeComments_last {s : Snapshot} {samples : List Sample} {x : Address}
    {y : Sample} (h : Sample.LastOn samples x y) (hin : (s.functionContaining? x).isSome) :
    (writeComments s samples).2.lineComment? x = some y.comment := by
  obtain ⟨rfl, before, after, rfl, hafter⟩ := h
  have hfunctions := functionContaining?_of_functions (writeComments_frame s before).2 y.address
  rw [writeComments_append_snd, writeComments_cons_snd, lineComment?_writeComments,
    lineComment?_commentLine, if_pos ⟨rfl, by rwa [hfunctions]⟩]
  intro later hlater heq
  exact absurd heq (hafter later hlater)

/-! ## Annotating -/

/-- What annotating reports depends on the functions only. -/
theorem annotate_fst_congr {s s' : Snapshot} (h : s'.functions = s.functions) (function : Address)
    (o : AnnotateOptions) :
    (Remarks.annotate s' function o).1 = (Remarks.annotate s function o).1 := by
  have hlook := functionContaining?_of_functions h
  have hlisting : Disassembler.listing s' function = Disassembler.listing s function := by
    show ((s'.functionContaining? function).map (·.lines)).getD [] = _
    rw [hlook]
    rfl
  have hname : Disassembler.functionAt? s' function = Disassembler.functionAt? s function := by
    show (s'.functionContaining? function).map (·.info) = _
    rw [hlook]
    rfl
  simp only [Remarks.annotate, hlisting, hname]
  split
  · rfl
  · cases o.mayWrite with
    | false => rfl
    | true => simp only [if_true, writeComments_fst, hlook]

theorem annotate_of_mayWrite (s : Snapshot) (function : Address) {o : AnnotateOptions}
    (hwrite : o.mayWrite) :
    let run := Remarks.annotate s function o
    run.1.annotated = (writeComments s run.1.samples).1 ∧
      run.2 = (writeComments s run.1.samples).2 := by
  obtain ⟨notes, hrun⟩ := annotate_eq s function o
  simp only [hrun, hwrite, if_true]
  exact ⟨trivial, trivial⟩

/-- Comments on the same samples a second time. -/
theorem lineComments_writeComments_again {s s' : Snapshot} {samples : List Sample}
    (h : s' = (writeComments s samples).2) :
    (writeComments s' samples).2.lineComments = s'.lineComments := by
  apply AddressMap.eq_of_get?
  intro x
  show (writeComments s' samples).2.lineComment? x = s'.lineComment? x
  have hlook : s'.functionContaining? x = s.functionContaining? x := by
    rw [h]
    exact functionContaining?_of_functions (writeComments_frame s samples).2 x
  by_cases hwritten : (∃ y ∈ samples, y.address = x) ∧ (s.functionContaining? x).isSome
  · obtain ⟨hon, hin⟩ := hwritten
    obtain ⟨y, hlast⟩ := Sample.exists_lastOn hon
    rw [lineComment?_writeComments_last hlast (by rwa [hlook]), h,
      lineComment?_writeComments_last hlast hin]
  · apply lineComment?_writeComments
    intro y hy hyx
    rw [hlook]
    exact Option.not_isSome_iff_eq_none.1 fun hin => hwritten ⟨⟨y, hy, hyx⟩, hin⟩

/-- **The comments that annotating leaves.** A line that some function contains has the comment of
the last sample on it; lines without a sample and lines that no function contains are as before, and
so are memory and functions. The samples that functions contain are counted, whichever functions
these are. A second run gives the same report and leaves the comments as they are. -/
theorem annotate_leaves_comments {s : Snapshot} (h : s.Reachable) (function : Address)
    {o : AnnotateOptions} (hwrite : o.dryRun = false ∧ o.writesEnabled = true) :
    let run := Remarks.annotate s function o
    let again := Remarks.annotate run.2 function o
    (∀ x y, Sample.LastOn run.1.samples x y → (∃ f ∈ s.functions.values, f.contains x) →
      run.2.lineComment? x = some ("MMIO " ++ y.kind.name ++ " " ++ y.shownAddress.text)) ∧
    (∀ x, (∀ y ∈ run.1.samples, y.address ≠ x) ∨ (¬ ∃ f ∈ s.functions.values, f.contains x) →
      run.2.lineComment? x = s.lineComment? x) ∧
    run.2.segments = s.segments ∧ run.2.functions = s.functions ∧
    run.1.annotated =
      run.1.samples.countP (fun y => s.functions.values.any (·.contains y.address)) ∧
    again.1 = run.1 ∧ again.2.lineComments = run.2.lineComments := by
  intro run again
  have hinside := h.consistent.isSome_functionContaining?_iff
  have hmay : o.mayWrite := AnnotateOptions.mayWrite_iff.2 hwrite
  obtain ⟨hannotated, hstate⟩ : run.1.annotated = (writeComments s run.1.samples).1 ∧
      run.2 = (writeComments s run.1.samples).2 := annotate_of_mayWrite s function hmay
  obtain ⟨hsegments, hfunctions⟩ := writeComments_frame s run.1.samples
  rw [← hstate] at hsegments hfunctions
  have hagain : again.1 = run.1 := annotate_fst_congr hfunctions function o
  refine ⟨fun x y hlast hin => ?_, fun x hnot => ?_, hsegments, hfunctions, ?_, hagain, ?_⟩
  · rw [hstate]
    exact lineComment?_writeComments_last hlast ((hinside x).2 hin)
  · rw [hstate]
    apply lineComment?_writeComments
    intro y hy hyx
    rcases hnot with hnot | hnot
    · exact absurd hyx (hnot y hy)
    · exact Option.not_isSome_iff_eq_none.1 (mt (hinside x).1 hnot)
  · rw [hannotated, writeComments_fst]
    congr 1
    funext y
    rw [Bool.eq_iff_iff, hinside, List.any_eq_true]
  · have hagain' : again.2 = (writeComments run.2 again.1.samples).2 :=
      (annotate_of_mayWrite run.2 function hmay).2
    rw [hagain', hagain]
    exact lineComments_writeComments_again hstate

/-- Two functions with comments on lines. The listing of the first has two accesses on one of its
lines, one in the other function, and one outside of both. -/
def accesses : Snapshot :=
  run [.addFunction ⟨"setup", 0x8000, none⟩ 16
      ["00008000: LDR R0,=0x40020000", "00008004: STR R1,[R0,#0x4]", "00008004: ORR R1,R1,#0x1",
        "00009000: LDR R2,[R0,#0x8]", "0000A000: EOR R2,R2,R3"],
    .addFunction ⟨"other", 0x9000, none⟩ 16 [], .commentLine 0x8004 "old",
    .commentLine 0x9004 "kept"]

/-- The samples are the accesses as they are listed, which is by address. -/
theorem samples_accesses :
    (Remarks.annotate accesses 0x8000 { writesEnabled := true }).1.samples =
      [⟨0x8000, .read, 0x40020000, 0x40020000⟩, ⟨0x8004, .write, 0x40020004, 0x40020004⟩,
        ⟨0x8004, .bitOr, 1, 1⟩, ⟨0x9000, .read, 0x40020008, 0x40020008⟩,
        ⟨0xA000, .bitXor, 0, 0xA000⟩] := by
  have hoperations : (Survey.ofListing (Disassembler.listing accesses 0x8000)).operations =
      [⟨0x8000, .read, 0x40020000⟩, ⟨0x8004, .write, 0x40020004⟩, ⟨0x8004, .bitOr, 1⟩,
        ⟨0x9000, .read, 0x40020008⟩, ⟨0xA000, .bitXor, 0⟩] := by decide +kernel
  rw [samples_annotate, hoperations, Remarks.samples, ordered_of_pairwise (by decide)]
  rfl

/-- Of two accesses on a line the later one is named, and an access outside of all functions gets no
comment. -/
theorem annotate_accesses :
    let run := Remarks.annotate accesses 0x8000 { writesEnabled := true }
    accesses.Reachable ∧ run.2.lineComment? 0x8004 = some "MMIO OR 0x00000001" ∧
      run.2.lineComment? 0x9000 = some "MMIO READ 0x40020008" ∧
        run.2.lineComment? 0x9004 = some "kept" ∧
      run.2.lineComment? 0xA000 = none ∧ run.1.annotated = 4 ∧
      (Remarks.annotate run.2 0x8000 { writesEnabled := true }).1 = run.1 := by
  intro run
  have hreach : accesses.Reachable := reachable_run _
  obtain ⟨hlast, hframe, -, -, hannotated, hagain, -⟩ :=
    annotate_leaves_comments (o := { writesEnabled := true }) hreach 0x8000 ⟨rfl, rfl⟩
  rw [samples_accesses] at hlast hframe hannotated
  refine ⟨hreach, ?_, ?_, ?_, ?_, hannotated.trans (by decide +kernel), hagain⟩
  · exact hlast 0x8004 ⟨0x8004, .bitOr, 1, 1⟩ ⟨rfl, [_, _], [_, _], rfl, by decide⟩
      (by decide +kernel)
  · exact hlast 0x9000 ⟨0x9000, .read, 0x40020008, 0x40020008⟩ ⟨rfl, [_, _, _], [_], rfl, by decide⟩
      (by decide +kernel)
  · exact (hframe 0x9004 (Or.inl (by decide))).trans (by decide +kernel)
  · exact (hframe 0xA000 (Or.inr (by decide +kernel))).trans (by decide +kernel)

end Snapshot

end FirmScan
