import FirmScan.Proofs.Snapshot.Reachable

/-!
# Looking up a function

The function that contains an address is found by its entry: the greatest entry not above the
address decides, and the other functions are not considered. This file compares the look-up with a
search through all functions (`around`).

**Theorem (`lookup_eq_search`).** In every reachable snapshot the search finds at most one function,
and it is the one that the look-up finds. What a snapshot answers about an address is therefore what
the search says, and a write call is accepted exactly where the search allows it.

The reason is that the functions of a consistent snapshot keep apart: of two functions at most one
contains a given address (`Consistent.pairwise_not_contains`), so a function with a smaller entry
cannot reach beyond the one that the look-up considers.
-/

namespace FirmScan.Snapshot

/-- The functions around an address, found by a search through all functions. -/
def around (s : Snapshot) (a : Address) : List FunctionRecord :=
  s.functions.values.filter fun f => f.info.entry.toNat ≤ a.toNat ∧ a.toNat < f.stop.toNat

theorem mem_around_iff {s : Snapshot} {a : Address} {f : FunctionRecord} :
    f ∈ s.around a ↔ f ∈ s.functions.values ∧ f.contains a := by
  simp [around, FunctionRecord.contains_iff]

namespace Consistent

variable {s : Snapshot}

/-- A function is stored under its entry, so the entry adds nothing to the record. -/
theorem mem_values_iff (h : s.Consistent) {f : FunctionRecord} :
    f ∈ s.functions.values ↔ (f.info.entry, f) ∈ s.functions.entries := by
  constructor
  · intro hf
    obtain ⟨p, hp, rfl⟩ := List.mem_map.1 hf
    rw [h.functions.keyed p hp]
    exact hp
  · intro hf
    exact List.mem_map.2 ⟨_, hf, rfl⟩

theorem pairwise_not_contains (h : s.Consistent) (a : Address) :
    s.functions.values.Pairwise fun f g => ¬ (f.contains a ∧ g.contains a) := by
  refine List.pairwise_map.2 (s.functions.sorted.imp_of_mem fun hp hq hlt => ?_)
  intro hboth
  exact h.functions.not_contains_both hp hq hlt hboth.1 hboth.2

/-- A search finds one function at most. -/
theorem length_around_le_one (h : s.Consistent) (a : Address) : (s.around a).length ≤ 1 := by
  have hapart : (s.around a).Pairwise fun f g => ¬ (f.contains a ∧ g.contains a) :=
    (h.pairwise_not_contains a).filter _
  have hin : ∀ f ∈ s.around a, f.contains a := fun f hf => (mem_around_iff.1 hf).2
  cases hfound : s.around a with
  | nil => simp
  | cons f rest =>
    cases rest with
    | nil => simp
    | cons g rest =>
      rw [hfound] at hapart hin
      have hnot := (List.pairwise_cons.1 hapart).1 g List.mem_cons_self
      exact absurd ⟨hin f (by simp), hin g (by simp)⟩ hnot

/-- **The look-up finds what the search finds.** -/
theorem toList_functionContaining? (h : s.Consistent) (a : Address) :
    (s.functionContaining? a).toList = s.around a := by
  have hmem {f : FunctionRecord} : f ∈ s.around a ↔ s.functionContaining? a = some f := by
    rw [mem_around_iff, h.mem_values_iff, h.functionContaining?_eq_some_iff]
  have hlength := h.length_around_le_one a
  cases hfound : s.around a with
  | nil =>
    cases hlook : s.functionContaining? a with
    | none => rfl
    | some f =>
      have hf := hmem.2 hlook
      rw [hfound] at hf
      cases hf
  | cons f rest =>
    have hrest : rest = [] := by
      rw [hfound, List.length_cons] at hlength
      exact List.length_eq_zero_iff.1 (by omega)
    rw [hmem.1 (by rw [hfound]; exact List.mem_cons_self), hrest]
    rfl

theorem head?_around (h : s.Consistent) (a : Address) :
    (s.around a).head? = s.functionContaining? a := by
  rw [← h.toList_functionContaining? a]
  cases s.functionContaining? a <;> rfl

/-- The functions that a write call may name are those found at their own entries. -/
theorem isSome_get?_iff (h : s.Consistent) (a : Address) :
    (s.functions.get? a).isSome ↔ ∃ info, s.functionAt? a = some info ∧ info.entry = a := by
  constructor
  · intro hsome
    obtain ⟨f, hf⟩ := Option.isSome_iff_exists.1 hsome
    have hmem := AddressMap.get?_eq_some_iff.1 hf
    exact ⟨f.info, by rw [functionAt?, h.functionContaining?_of_mem hmem]; rfl,
      h.functions.keyed _ hmem⟩
  · intro ⟨info, hinfo, hentry⟩
    obtain ⟨f, hf, rfl⟩ := Option.map_eq_some_iff.1 hinfo
    have hmem := (h.functionContaining?_eq_some_iff.1 hf).1
    rw [hentry] at hmem
    rw [AddressMap.get?_eq_some_iff.2 hmem]
    rfl

end Consistent

/-! ## Which write calls are accepted -/

theorem rename_accepted_iff (s : Snapshot) (a : Address) (name : String) :
    (s.rename a name).1 ↔ (s.functions.get? a).isSome ∧ name ≠ "" := by
  unfold rename
  by_cases h : (s.functions.get? a).isSome ∧ name ≠ "" <;> simp [record, h]

theorem commentFunction_accepted_iff (s : Snapshot) (a : Address) (text : String) :
    (s.commentFunction a text).1 ↔ (s.functions.get? a).isSome := by
  unfold commentFunction
  by_cases h : (s.functions.get? a).isSome <;> simp [record, h]

theorem commentLine_accepted_iff (s : Snapshot) (a : Address) (text : String) :
    (s.commentLine a text).1 ↔ (s.functionContaining? a).isSome := by
  have hlook : (s.record (.lineComment a text)).functionContaining? a = s.functionContaining? a :=
    rfl
  unfold commentLine
  by_cases h : (s.functionContaining? a).isSome <;> simp [hlook, h]

/-- **A look-up is a search through all functions.** There is one function around an address at
most, and it is the one that is looked up. Its metadata and its listing are the answers about the
address, a line may be commented wherever there is such a function, and a function is renamed or
commented exactly at the address that is the entry of the function found there. -/
theorem lookup_eq_search {s : Snapshot} (h : s.Reachable) (a : Address) :
    (s.functionContaining? a).toList = s.around a ∧
    s.functionAt? a = (s.around a).head?.map (·.info) ∧
    s.listing a = (s.around a).flatMap (·.lines) ∧
    (∀ text, (s.commentLine a text).1 ↔ s.around a ≠ []) ∧
    (∀ name, (s.rename a name).1 ↔
      name ≠ "" ∧ ∃ info, s.functionAt? a = some info ∧ info.entry = a) ∧
    ∀ text, (s.commentFunction a text).1 ↔
      ∃ info, s.functionAt? a = some info ∧ info.entry = a := by
  have hlook := h.consistent.toList_functionContaining? a
  refine ⟨hlook, ?_, ?_, fun text => ?_, fun name => ?_, fun text => ?_⟩
  · rw [h.consistent.head?_around, functionAt?]
  · rw [← hlook, listing]
    cases s.functionContaining? a <;> simp
  · rw [commentLine_accepted_iff, ← hlook]
    cases s.functionContaining? a <;> simp
  · rw [rename_accepted_iff, h.consistent.isSome_get?_iff, and_comm]
  · rw [commentFunction_accepted_iff, h.consistent.isSome_get?_iff]

/-- Two functions that touch, the second of them without a size, and one that ends where addresses
do. -/
def seams : Snapshot :=
  run [.addFunction ⟨"low", 0x8000, none⟩ 16 ["00008000: NOP"],
    .addFunction ⟨"next", 0x8010, none⟩ 0 [],
    .addFunction ⟨"top", 0xFFFFFFFFFFFFFFF0, none⟩ 15 ["FFFFFFFFFFFFFFF0: NOP"]]

/-- The last byte of the first function is not the second's, one byte behind the second is no
function's, and neither is the last address of all. -/
theorem lookup_at_seams :
    seams.Reachable ∧ seams.listing 0x800F = ["00008000: NOP"] ∧
      seams.functionAt? 0x8010 = some ⟨"next", 0x8010, none⟩ ∧ seams.functionAt? 0x8011 = none ∧
      seams.functionAt? 0xFFFFFFFFFFFFFFFE = some ⟨"top", 0xFFFFFFFFFFFFFFF0, none⟩ ∧
      seams.functionAt? 0xFFFFFFFFFFFFFFFF = none := by
  have hreach : seams.Reachable := reachable_run _
  have hfound (a : Address) := (lookup_eq_search hreach a).2.1
  exact ⟨hreach, (lookup_eq_search hreach 0x800F).2.2.1, hfound 0x8010, hfound 0x8011,
    hfound 0xFFFFFFFFFFFFFFFE, hfound 0xFFFFFFFFFFFFFFFF⟩

end FirmScan.Snapshot
