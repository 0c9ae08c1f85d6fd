import FirmScan.Access.Remarks
import FirmScan.Proofs.Disassembler.Recorded

/-!
# What annotating reports, and what it writes

Annotating reads the listing of a function once and works on what it surveyed there. Nothing is
assumed of the disassembler: it may refuse comments, and it may change what it says about the
function while comments are written.

**Theorem (`annotate_reports_and_comments`).** The report has the numbers of the survey. Its samples
are the first operations by address, and with leave to write there is one comment on each of them,
in their order; otherwise nothing is written. The comments that the report counts are those that
were acknowledged.

**Order** (`ByAddress`). The operations by address, those at one address as in the listing. There is
one such list only (`byAddress_iff`), and sorting finds it because it is stable.

**An empty listing** is no exception to any of this: its survey is empty (`annotate_eq`), and only
the note differs.
-/

namespace FirmScan

universe u

/-! ## Operations by address -/

/-- `sorted` has the operations by address, and those at one address in the order of `ops`. -/
structure ByAddress (ops sorted : List Operation) : Prop where
  perm : sorted.Perm ops
  ordered : sorted.Pairwise fun x y => x.address ≤ y.address
  ties : ∀ a, sorted.filter (·.address = a) = ops.filter (·.address = a)

theorem byAddress_ordered (ops : List Operation) : ByAddress ops (Remarks.ordered ops) := by
  have htrans (x y z : Operation) (hxy : decide (x.address ≤ y.address))
      (hyz : decide (y.address ≤ z.address)) :
      decide (x.address ≤ z.address) :=
    decide_eq_true (UInt64.le_trans (of_decide_eq_true hxy) (of_decide_eq_true hyz))
  have htotal (x y : Operation) : decide (x.address ≤ y.address) ||
      decide (y.address ≤ x.address) := by
    simpa using UInt64.le_total x.address y.address
  have hperm : (Remarks.ordered ops).Perm ops := List.mergeSort_perm ..
  refine ⟨hperm, (List.pairwise_mergeSort htrans htotal ops).imp of_decide_eq_true, fun a => ?_⟩
  -- The operations at `a` are in order among themselves, so sorting keeps them as they are; there
  -- are no others.
  have hequal : (ops.filter (·.address = a)).Pairwise fun x y =>
      decide (x.address ≤ y.address) := by
    refine List.pairwise_of_forall_mem_list fun x hx y hy => decide_eq_true ?_
    have hx : x.address = a := by simpa using (List.mem_filter.1 hx).2
    have hy : y.address = a := by simpa using (List.mem_filter.1 hy).2
    rw [hx, hy]
    exact UInt64.le_refl a
  have hkept : (ops.filter (·.address = a)).Sublist
      ((Remarks.ordered ops).filter (·.address = a)) := by
    have := (List.sublist_mergeSort htrans htotal hequal List.filter_sublist).filter (·.address = a)
    rwa [List.filter_filter,
      funext fun x : Operation => Bool.and_self (decide (x.address = a))] at this
  exact (hkept.eq_of_length (hperm.filter _).length_eq.symm).symm

theorem mem_iff_of_ties {l l' : List Operation}
    (h : ∀ a, l.filter (·.address = a) = l'.filter (·.address = a)) (x : Operation) :
    x ∈ l ↔ x ∈ l' := by
  have := congrArg (x ∈ ·) (h x.address)
  simpa using this

/-- The first of operations by address has the least address. -/
theorem head_le_of_mem {x y : Operation} {l : List Operation}
    (h : (x :: l).Pairwise fun x y => x.address ≤ y.address) (hy : y ∈ x :: l) :
    x.address ≤ y.address := by
  rcases List.mem_cons.1 hy with rfl | hy
  · exact UInt64.le_refl _
  · exact (List.pairwise_cons.1 h).1 y hy

/-- Lists in the order of addresses are equal if they agree at each address. -/
theorem eq_of_ties {l l' : List Operation} (h : l.Pairwise fun x y => x.address ≤ y.address)
    (h' : l'.Pairwise fun x y => x.address ≤ y.address)
    (hties : ∀ a, l.filter (·.address = a) = l'.filter (·.address = a)) : l = l' := by
  induction l generalizing l' with
  | nil =>
    refine (List.eq_nil_iff_forall_not_mem.2 fun x hx => ?_).symm
    cases (mem_iff_of_ties hties x).2 hx
  | cons x l ih =>
    cases l' with
    | nil => cases (mem_iff_of_ties hties x).1 List.mem_cons_self
    | cons y l' =>
      have hle := head_le_of_mem h ((mem_iff_of_ties hties y).2 List.mem_cons_self)
      have hge := head_le_of_mem h' ((mem_iff_of_ties hties x).1 List.mem_cons_self)
      have haddress : y.address = x.address := UInt64.le_antisymm hge hle
      have hhead := hties x.address
      rw [List.filter_cons_of_pos (by simp),
        List.filter_cons_of_pos (by simpa using haddress)] at hhead
      obtain ⟨rfl, -⟩ := List.cons.inj hhead
      rw [ih h.of_cons h'.of_cons]
      intro a
      have htail := hties a
      by_cases ha : x.address = a
      · rw [List.filter_cons_of_pos (by simpa using ha),
          List.filter_cons_of_pos (by simpa using ha)] at htail
        exact (List.cons.inj htail).2
      · rwa [List.filter_cons_of_neg (by simpa using ha),
          List.filter_cons_of_neg (by simpa using ha)] at htail

/-- **There is one order by address**, and sorting finds it. -/
theorem byAddress_iff {ops sorted : List Operation} :
    ByAddress ops sorted ↔ sorted = Remarks.ordered ops := by
  have hfound := byAddress_ordered ops
  constructor
  · intro h
    exact eq_of_ties h.ordered hfound.ordered fun a => (h.ties a).trans (hfound.ties a).symm
  · intro h
    rw [h]
    exact hfound

theorem ordered_of_pairwise {ops : List Operation}
    (h : ops.Pairwise fun x y => x.address ≤ y.address) :
    Remarks.ordered ops = ops :=
  (byAddress_iff.1 ⟨.refl ops, h, fun _ => rfl⟩).symm

/-! ## The report -/

/-- The numbers of a report are those of a survey, and each operation is counted once. -/
structure AccessReport.Tallies (r : AccessReport) (s : Survey) : Prop where
  reads : r.reads = s.count .read
  writes : r.writes = s.count .write
  bitOrs : r.bitOrs = s.count .bitOr
  bitAnds : r.bitAnds = s.count .bitAnd
  bitXors : r.bitXors = s.count .bitXor
  total : r.reads + r.writes + r.bitOrs + r.bitAnds + r.bitXors = s.operations.length
  skipped : r.skipped = s.skipped

/-- The samples are the first operations by address, up to the limit. No operation that is left out
has a lesser address than one of them. A sample shows its target, or its own address if the target
is 0. -/
structure Samples (ops : List Operation) (limit : Nat) (samples : List Sample) : Prop where
  first : ∃ sorted, (∀ l, ByAddress ops l ↔ l = sorted) ∧
    (samples.map fun x => ⟨x.address, x.kind, x.target⟩) = sorted.take limit ∧
    ∀ x ∈ samples, ∀ y ∈ sorted.drop limit, x.address ≤ y.address
  length : samples.length = min limit ops.length
  ordered : samples.Pairwise fun x y => x.address ≤ y.address
  shown : ∀ x ∈ samples, x.shownAddress = if x.target = 0 then x.address else x.target

theorem Survey.count_kinds (s : Survey) :
    s.count .read + s.count .write + s.count .bitOr + s.count .bitAnd + s.count .bitXor =
      s.operations.length := by
  obtain ⟨ops, skipped, dataLines⟩ := s
  simp only [count]
  induction ops with
  | nil => rfl
  | cons x ops ih =>
    simp only [List.countP_cons, List.length_cons]
    cases hkind : x.kind <;> simp <;> omega

theorem samples_samples (o : AnnotateOptions) (ops : List Operation) :
    Samples ops o.maxSamples (Remarks.samples o ops) := by
  have hsorted := byAddress_ordered ops
  have hsplit := List.take_append_drop o.maxSamples (Remarks.ordered ops)
  obtain ⟨hordered, -, homitted⟩ := List.pairwise_append.1 (hsplit ▸ hsorted.ordered)
  refine ⟨⟨Remarks.ordered ops, fun l => byAddress_iff, ?_, ?_⟩, ?_, List.pairwise_map.2 hordered,
    ?_⟩
  · rw [Remarks.samples, List.map_map]
    exact List.map_id _
  · intro x hx y hy
    obtain ⟨z, hz, rfl⟩ := List.mem_map.1 hx
    exact homitted z hz y hy
  · rw [Remarks.samples, List.length_map, List.length_take, hsorted.perm.length_eq]
  · intro x hx
    obtain ⟨z, -, rfl⟩ := List.mem_map.1 hx
    rfl

theorem Remarks.samples_nil (o : AnnotateOptions) : samples o [] = [] := by
  simp [samples, ordered]

variable {σ : Type u} [Disassembler σ]

/-! ## Comments -/

/-- The call that comments a sample. -/
def Sample.call (x : Sample) : Edit := .lineComment x.address x.comment

/-- Commenting samples is making one call for each of them and counting what was acknowledged. -/
theorem writeComments_eq_answers (s : σ) (samples : List Sample) :
    Remarks.writeComments s samples =
      ((Disassembler.answers s (samples.map Sample.call)).1.count true,
        (Disassembler.answers s (samples.map Sample.call)).2) := by
  induction samples generalizing s with
  | nil => rfl
  | cons x samples ih =>
    have hlater := ih (Disassembler.commentLine s x.address x.comment).2
    simp only [Remarks.writeComments, hlater, List.map_cons, Disassembler.answers, Sample.call,
      Disassembler.write, List.count_cons]
    cases (Disassembler.commentLine s x.address x.comment).1 <;> rfl

theorem writeComments_recorded (d : Recorded σ) (samples : List Sample) :
    Remarks.writeComments d samples =
      ((Remarks.writeComments d.inner samples).1,
        ⟨(Remarks.writeComments d.inner samples).2, d.calls ++ samples.map Sample.call⟩) := by
  induction samples generalizing d with
  | nil => simp [Remarks.writeComments]
  | cons x samples ih =>
    have hlater := ih (Disassembler.commentLine d x.address x.comment).2
    simp only [Remarks.writeComments, hlater]
    simp [Disassembler.commentLine, Recorded.enter, Sample.call]

/-- **Annotating, in one case.** Without a listing the survey is empty, and so are the samples. -/
theorem annotate_eq (s : σ) (function : Address) (o : AnnotateOptions) :
    let survey := Survey.ofListing (Disassembler.listing s function)
    let chosen := Remarks.samples o survey.operations
    let written := if o.mayWrite then Remarks.writeComments s chosen else (0, s)
    ∃ notes, Remarks.annotate s function o =
      ({ function, functionName := (Disassembler.functionAt? s function).map (·.name),
         annotated := written.1, samples := chosen, skipped := survey.skipped,
         reads := survey.count .read, writes := survey.count .write,
         bitOrs := survey.count .bitOr, bitAnds := survey.count .bitAnd,
         bitXors := survey.count .bitXor, notes }, written.2) := by
  intro survey chosen written
  by_cases hlines : Disassembler.listing s function = []
  · have hsurvey : survey = ⟨[], 0, 0⟩ := congrArg Survey.ofListing hlines
    have hchosen : chosen = [] := by
      show Remarks.samples o survey.operations = []
      rw [hsurvey]
      exact Remarks.samples_nil o
    have hwritten : written = (0, s) := by
      show (if o.mayWrite then Remarks.writeComments s chosen else (0, s)) = (0, s)
      rw [hchosen]
      exact ite_self _
    refine ⟨["no disassembly for " ++ function.text], ?_⟩
    rw [hwritten, hchosen, hsurvey, Remarks.annotate, hlines]
    rfl
  · refine ⟨Remarks.notes o survey, ?_⟩
    rw [Remarks.annotate, if_neg (by simpa using hlines)]

/-- The record changes neither the report nor the state, and shows the comments. -/
theorem annotate_recorded (d : Recorded σ) (function : Address) (o : AnnotateOptions) :
    let plain := Remarks.annotate d.inner function o
    Remarks.annotate d function o =
      (plain.1, ⟨plain.2,
        d.calls ++ if o.mayWrite then plain.1.samples.map Sample.call else []⟩) := by
  have hlisting : Disassembler.listing d function = Disassembler.listing d.inner function := rfl
  have hname : Disassembler.functionAt? d function = Disassembler.functionAt? d.inner function :=
    rfl
  simp only [Remarks.annotate, hlisting, hname]
  by_cases hlines : Disassembler.listing d.inner function = []
  · simp [hlines]
  · cases hwrite : o.mayWrite with
    | false => simp [hlines]
    | true => simp [hlines, writeComments_recorded]

theorem AnnotateOptions.mayWrite_iff {o : AnnotateOptions} :
    o.mayWrite ↔ o.dryRun = false ∧ o.writesEnabled = true := by
  simp [mayWrite]

theorem tallies_annotate (s : σ) (function : Address) (o : AnnotateOptions) :
    (Remarks.annotate s function o).1.Tallies
      (Survey.ofListing (Disassembler.listing s function)) := by
  obtain ⟨notes, hrun⟩ := annotate_eq s function o
  rw [hrun]
  exact ⟨rfl, rfl, rfl, rfl, rfl, Survey.count_kinds _, rfl⟩

theorem samples_annotate (s : σ) (function : Address) (o : AnnotateOptions) :
    (Remarks.annotate s function o).1.samples =
      Remarks.samples o (Survey.ofListing (Disassembler.listing s function)).operations := by
  obtain ⟨notes, hrun⟩ := annotate_eq s function o
  rw [hrun]

/-- The comments that annotating asks for. -/
def Remarks.callsOf (o : AnnotateOptions) (samples : List Sample) : List Edit :=
  if o.mayWrite then samples.map Sample.call else []

theorem answers_annotate (s : σ) (function : Address) (o : AnnotateOptions) :
    let run := Remarks.annotate s function o
    run.1.annotated = (Disassembler.answers s (Remarks.callsOf o run.1.samples)).1.count true ∧
      run.2 = (Disassembler.answers s (Remarks.callsOf o run.1.samples)).2 := by
  obtain ⟨notes, hrun⟩ := annotate_eq s function o
  simp only [hrun, Remarks.callsOf, writeComments_eq_answers]
  cases o.mayWrite <;> exact ⟨rfl, rfl⟩

/-- **What annotating reports and writes**, whatever the disassembler answers. The numbers are those
of the survey, and the samples its first operations by address. The calls are one comment for each
sample, in their order, if the options allow writing, and none if they do not; the report counts
those that were acknowledged, and the state is the one that they leave. Without a listing there is
nothing to count and nothing to write. Keeping the record made no difference. -/
theorem annotate_reports_and_comments (s : σ) (function : Address) (o : AnnotateOptions) :
    let lines := Disassembler.listing s function
    let run := Remarks.annotate s function o
    let recorded := Remarks.annotate (Recorded.start s) function o
    let calls := recorded.2.calls
    run.1.Tallies (Survey.ofListing lines) ∧
    Samples (Survey.ofListing lines).operations o.maxSamples run.1.samples ∧
    calls = (if o.dryRun = false ∧ o.writesEnabled = true then
      run.1.samples.map fun x =>
        .lineComment x.address ("MMIO " ++ x.kind.name ++ " " ++ x.shownAddress.text)
      else []) ∧
    run.1.annotated = (Disassembler.answers s calls).1.count true ∧
    run.2 = (Disassembler.answers s calls).2 ∧
    (lines = [] →
      run.1.reads = 0 ∧ run.1.writes = 0 ∧ run.1.bitOrs = 0 ∧ run.1.bitAnds = 0 ∧
        run.1.bitXors = 0 ∧
      run.1.skipped = 0 ∧ run.1.annotated = 0 ∧ run.1.samples = [] ∧ calls = [] ∧ run.2 = s) ∧
    recorded.1 = run.1 ∧ recorded.2.inner = run.2 := by
  intro lines run recorded calls
  have hrecorded : recorded = (run.1, ⟨run.2, Remarks.callsOf o run.1.samples⟩) :=
    annotate_recorded (Recorded.start s) function o
  have hcalls : calls = Remarks.callsOf o run.1.samples := congrArg (·.2.calls) hrecorded
  obtain ⟨hannotated, hstate⟩ := answers_annotate s function o
  have htallies : run.1.Tallies (Survey.ofListing lines) := tallies_annotate s function o
  have hsamples : run.1.samples = Remarks.samples o (Survey.ofListing lines).operations :=
    samples_annotate s function o
  rw [hcalls]
  refine ⟨htallies, hsamples ▸ samples_samples o _, ?_, hannotated, hstate, fun hlines => ?_,
    congrArg (·.1) hrecorded, congrArg (·.2.inner) hrecorded⟩
  · simp only [Remarks.callsOf, AnnotateOptions.mayWrite_iff]
    rfl
  · rw [hlines] at htallies hsamples
    have hnone : run.1.samples = [] := hsamples.trans (Remarks.samples_nil o)
    have hnoCalls : Remarks.callsOf o run.1.samples = [] := by
      rw [hnone]
      exact ite_self _
    rw [hnoCalls] at hannotated hstate
    exact ⟨htallies.reads, htallies.writes, htallies.bitOrs, htallies.bitAnds, htallies.bitXors,
      htallies.skipped, hannotated, hnone, hnoCalls, hstate⟩

end FirmScan
