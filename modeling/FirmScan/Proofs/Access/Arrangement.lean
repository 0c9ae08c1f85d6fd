import FirmScan.Proofs.Access.Provenance

/-!
# Where the data of a listing stand

Code refers to data above and below it, and a listing may have lines that say nothing. A survey
should not depend on how all these are arranged.

**Theorem (`survey_arrangement`).** A survey depends on two things only: the instructions in their
order, and for each address the last datum that is given for it (`LastDatum`). Two listings that
agree on both have the same operations and the same number of accesses left out. Lines without data
that are added at the end leave the operations found before as they are.

The data are collected before the first instruction is looked at, so that what the instructions see
is one pool, and the pool holds exactly the last data (`poolOf_eq_some_iff`).
-/

namespace FirmScan.Survey

/-! ## What lines say -/

/-- The instruction of a line. -/
def instructionIn? (line : String) : Option Instruction :=
  match Line.parse? line.toList with
  | some (.instruction i) => some i
  | _ => none

/-- The datum of a line and its address. -/
def datumIn? (line : String) : Option (Address × UInt64) :=
  match Line.parse? line.toList with
  | some (.data a v) => some (a, v)
  | _ => none

/-- Some line gives the datum for the address, and no later line gives another. -/
def LastDatum (lines : List String) (a : Address) (v : UInt64) : Prop :=
  ∃ before line after, lines = before ++ line :: after ∧ datumIn? line = some (a, v) ∧
    ∀ later ∈ after, ∀ w, datumIn? later ≠ some (a, w)

theorem instructionsOf_read (lines : List String) :
    instructionsOf (lines.filterMap fun l => Line.parse? l.toList) =
      lines.filterMap instructionIn? := by
  rw [instructionsOf, List.filterMap_filterMap]
  congr 1
  funext line
  unfold instructionIn?
  rcases Line.parse? line.toList with _ | (_ | _) <;> rfl

theorem dataOf_read (lines : List String) :
    dataOf (lines.filterMap fun l => Line.parse? l.toList) = lines.filterMap datumIn? := by
  rw [dataOf, List.filterMap_filterMap]
  congr 1
  funext line
  unfold datumIn?
  rcases Line.parse? line.toList with _ | (_ | _) <;> rfl

/-- **A survey sees** the pool and the instructions. -/
theorem ofListing_eq (lines : List String) :
    (ofListing lines).operations =
        (outcomes (poolOf (lines.filterMap datumIn?)) .empty
          (lines.filterMap instructionIn?)).filterMap id ∧
      (ofListing lines).skipped =
        (outcomes (poolOf (lines.filterMap datumIn?)) .empty
          (lines.filterMap instructionIn?)).countP (·.isNone) := by
  rw [← instructionsOf_read, ← dataOf_read]
  exact ⟨rfl, rfl⟩

/-! ## The pool -/

/-- **The pool holds the last datum of each address.** -/
theorem poolOf_eq_some_iff {lines : List String} {a : Address} {v : UInt64} :
    poolOf (lines.filterMap datumIn?) a = some v ↔ LastDatum lines a v := by
  rw [poolOf, List.lookup_eq_some_iff]
  constructor
  · intro ⟨later, earlier, hsplit, hlater⟩
    -- The data are searched from the end, so what the search passes over stands behind the datum.
    have hdata : lines.filterMap datumIn? = earlier.reverse ++ (a, v) :: later.reverse := by
      rw [← List.reverse_reverse (lines.filterMap datumIn?), hsplit]
      simp
    obtain ⟨before, rest, rfl, -, hrest⟩ := List.filterMap_eq_append_iff.1 hdata
    obtain ⟨silent, line, after, rfl, -, hline, hafter⟩ := List.filterMap_eq_cons_iff.1 hrest
    refine ⟨before ++ silent, line, after, by simp, hline, fun l hl w hw => ?_⟩
    have hmem : (a, w) ∈ later := by
      rw [← List.mem_reverse, ← hafter]
      exact List.mem_filterMap.2 ⟨l, hl, hw⟩
    have hne := hlater _ hmem
    simp at hne
  · intro ⟨before, line, after, hlines, hline, hafter⟩
    refine ⟨(after.filterMap datumIn?).reverse, (before.filterMap datumIn?).reverse, ?_,
      fun p hp => ?_⟩
    · rw [hlines]
      simp [List.filterMap_append, hline]
    · obtain ⟨l, hl, hdatum⟩ := List.mem_filterMap.1 (List.mem_reverse.1 hp)
      have hne : p.1 ≠ a := by
        intro heq
        exact hafter l hl p.2 (by rw [hdatum, ← heq])
      simpa using Ne.symm hne

/-- Listings with the same last data have the same pool. -/
theorem poolOf_congr {lines lines' : List String}
    (h : ∀ a v, LastDatum lines' a v ↔ LastDatum lines a v) :
    poolOf (lines'.filterMap datumIn?) = poolOf (lines.filterMap datumIn?) := by
  funext a
  apply Option.ext
  intro v
  rw [poolOf_eq_some_iff, poolOf_eq_some_iff, h]

/-! ## The whole listing -/

theorem operations_append {lines more : List String} (h : ∀ line ∈ more, datumIn? line = none) :
    (ofListing lines).operations <+: (ofListing (lines ++ more)).operations := by
  have hdata : (lines ++ more).filterMap datumIn? = lines.filterMap datumIn? := by
    rw [List.filterMap_append, List.filterMap_eq_nil_iff.2 h, List.append_nil]
  rw [(ofListing_eq lines).1, (ofListing_eq (lines ++ more)).1, hdata, List.filterMap_append,
    outcomes_append, List.filterMap_append]
  exact List.prefix_append _ _

/-- **The arrangement of a listing does not matter.** Listings with the same instructions and the
same last data have the same operations, and as many accesses are left out. Lines without data that
follow a listing only add to its operations. -/
theorem survey_arrangement (lines : List String) :
    (∀ lines' : List String, lines'.filterMap instructionIn? = lines.filterMap instructionIn? →
      (∀ a v, LastDatum lines' a v ↔ LastDatum lines a v) →
      (ofListing lines').operations = (ofListing lines).operations ∧
        (ofListing lines').skipped = (ofListing lines).skipped) ∧
    ∀ more : List String, (∀ line ∈ more, datumIn? line = none) →
      (ofListing lines).operations <+: (ofListing (lines ++ more)).operations := by
  refine ⟨fun lines' hinstructions hdata => ?_, fun more hmore => operations_append hmore⟩
  obtain ⟨hoperations, hskipped⟩ := ofListing_eq lines
  obtain ⟨hoperations', hskipped'⟩ := ofListing_eq lines'
  rw [hoperations, hoperations', hskipped, hskipped', hinstructions, poolOf_congr hdata]
  exact ⟨rfl, rfl⟩

/-- A load from the pool and a store through what was loaded, with the datum below them. -/
def poolBelow : List String :=
  ["00008000: LDR R0,[PC,#0x0]", "00008004: STR R1,[R0,#0x4]", "00008008: .word 0x40020000"]

/-- The same with the datum above them, where it corrects an earlier one, and with lines that say
nothing. -/
def poolAbove : List String :=
  ["device registers", "00008008: .word 0x12345678", "00008008: .word 0x40020000",
    "00008000: LDR R0,[PC,#0x0]", "", "00008004: STR R1,[R0,#0x4]"]

theorem survey_poolAbove :
    (ofListing poolAbove).operations = [⟨0x8000, .read, 0x40020000⟩, ⟨0x8004, .write, 0x40020004⟩] ∧
      (ofListing poolAbove).operations <+:
        (ofListing (poolAbove ++ ["00008010: LDR R2,[R0,#0x8]"])).operations := by
  have hinstructions : poolAbove.filterMap instructionIn? = poolBelow.filterMap instructionIn? := by
    decide +kernel
  have hbelow : poolBelow.filterMap datumIn? = [(0x8008, 0x40020000)] := by decide +kernel
  have habove : poolAbove.filterMap datumIn? = [(0x8008, 0x12345678), (0x8008, 0x40020000)] := by
    decide +kernel
  have hdata (a : Address) (v : UInt64) : LastDatum poolAbove a v ↔ LastDatum poolBelow a v := by
    rw [← poolOf_eq_some_iff, ← poolOf_eq_some_iff, hbelow, habove, poolOf, poolOf]
    cases ha : a == 0x8008 <;> simp [List.lookup_cons, ha]
  have hoperations : (ofListing poolBelow).operations =
      [⟨0x8000, .read, 0x40020000⟩, ⟨0x8004, .write, 0x40020004⟩] := by decide +kernel
  refine ⟨?_, (survey_arrangement poolAbove).2 _ (by decide +kernel)⟩
  rw [← hoperations]
  exact ((survey_arrangement poolBelow).1 poolAbove hinstructions hdata).1

end FirmScan.Survey
