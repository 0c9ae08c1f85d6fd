import FirmScan.Proofs.Access.Upkeep
import Mathlib.Data.List.Nodup

/-!
# Registers are found under the names that they are kept by

A register is kept under a key that `Operand.register` makes of a text, and it is looked up by a
text of which a key is made again. An entry is thus found under its own key if making a key of the
key leaves it as it is.

**Keys** (`register_register_iff`). The blanks around a text are taken away first and the marks `!`
behind it afterwards. So a blank that stands directly before the marks is left over at the end of
the key, and it is taken away when a key is made of the key. A text with such a blank is `Detached`.
For all other texts the key stays.

**Theorem (`entries_found_iff`).** After a run, every entry is found by the text that it was
assigned through, and an entry whose key stays is found under its key. All keys stay exactly if no
instruction of the run assigned through a detached text.

A detached text is all it takes to lose an entry (`entry_lost`): `LDR R0 !,=0x10` makes a value
known that neither `R0` nor the key itself finds.
-/

namespace FirmScan

/-! ## Keys -/

namespace Operand

/-- A blank stands directly before the marks at the end of a text. -/
def Detached (cs : List Char) : Prop :=
  ∃ name blank marks, Text.trim cs = name ++ blank :: marks ∧ Text.isBlank blank ∧
    ∀ c ∈ marks, c = '!'

/-- The text without the blanks around it and the marks behind it. -/
def bare (cs : List Char) : List Char := (Text.trim cs).rdropWhile (· = '!')

theorem register_eq_upper_bare (cs : List Char) : register cs = Text.upper (bare cs) := rfl

theorem register_upper (cs : List Char) : register (Text.upper cs) = register cs := by
  have hmark : (fun c => decide (c = '!')) ∘ Char.toUpper = fun c => decide (c = '!') := by
    funext c
    exact decide_eq_decide.2 (Text.toUpper_eq_iff rfl)
  have hbare : bare (Text.upper cs) = Text.upper (bare cs) := by
    rw [bare, Text.trim_upper, bare]
    simp only [Text.upper, List.rdropWhile, ← List.map_reverse, List.dropWhile_map, hmark]
  rw [register_eq_upper_bare, hbare, Text.upper_upper, register_eq_upper_bare]

theorem bare_prefix_trim (cs : List Char) : bare cs <+: Text.trim cs := List.rdropWhile_prefix _ _

theorem trim_prefix_trimStart (cs : List Char) : Text.trim cs <+: Text.trimStart cs :=
  List.rdropWhile_prefix _ _

theorem length_bare_le (cs : List Char) : (bare cs).length ≤ cs.length :=
  calc (bare cs).length
    _ ≤ (Text.trim cs).length := (bare_prefix_trim cs).length_le
    _ ≤ (Text.trimStart cs).length := (trim_prefix_trimStart cs).length_le
    _ ≤ cs.length := (List.dropWhile_suffix _).length_le

/-- What is left of a text does not start with a blank. -/
theorem head_bare {cs : List Char} {c : Char} (h : (bare cs).head? = some c) :
    Text.isBlank c = false := by
  obtain ⟨rest, hrest⟩ := (bare_prefix_trim cs).trans (trim_prefix_trimStart cs)
  have hhead : (Text.trimStart cs).head? = some c := by
    rw [← hrest, List.head?_append, h, Option.some_or]
  have hnot := List.head?_dropWhile_not Text.isBlank cs
  rw [Text.trimStart] at hhead
  rw [hhead] at hnot
  simpa using hnot

theorem detached_iff {cs : List Char} :
    Detached cs ↔ ∃ name blank, bare cs = name ++ [blank] ∧ Text.isBlank blank := by
  refine ⟨fun h => ?_, fun h => ?_⟩
  · obtain ⟨name, blank, marks, htrim, hblank, hmarks⟩ := h
    have hne : blank ≠ '!' := by
      rintro rfl
      cases hblank
    have hmarks' : ∀ c ∈ marks.reverse, decide (c = '!') = true := by
      intro c hc
      exact decide_eq_true (hmarks c (List.mem_reverse.1 hc))
    refine ⟨name, blank, ?_, hblank⟩
    rw [bare, htrim, List.rdropWhile, List.reverse_append, List.reverse_cons, List.append_assoc,
      List.dropWhile_append_of_pos hmarks', List.singleton_append,
      List.dropWhile_cons_of_neg (by simpa using hne),
      List.reverse_cons, List.reverse_reverse]
  · obtain ⟨name, blank, hbare, hblank⟩ := h
    refine ⟨name, blank, (Text.trim cs).rtakeWhile (· = '!'), ?_, hblank, ?_⟩
    · rw [List.append_cons, ← hbare]
      exact List.rdropWhile_append_rtakeWhile.symm
    · intro c hc
      have hmark := List.mem_rtakeWhile_imp hc
      exact of_decide_eq_true hmark

/-- **When a key stays.** -/
theorem register_register_iff {cs : List Char} :
    register (register cs) = register cs ↔ ¬ Detached cs := by
  have hkey : register (register cs) = Text.upper (bare (bare cs)) := register_upper (bare cs)
  rw [hkey, register_eq_upper_bare, detached_iff]
  refine ⟨fun hsame hdetached => ?_, fun hattached => ?_⟩
  · obtain ⟨name, blank, hbare, hblank⟩ := hdetached
    -- The blank is taken away with the others, so the second key is shorter.
    have hlength : (bare (bare cs)).length = (bare cs).length := by
      simpa [Text.upper] using congrArg List.length hsame
    have hshort : bare (bare cs) = bare name := by
      rw [hbare, bare, Text.trim_concat_of_isBlank hblank, bare]
    have hle := length_bare_le name
    rw [hshort, hbare, List.length_append, List.length_singleton] at hlength
    omega
  · have htrim : Text.trim (bare cs) = bare cs := by
      refine Text.trim_of_ends (fun c hc => head_bare hc) (fun c hc => ?_)
      obtain ⟨name, hname⟩ := List.getLast?_eq_some_iff.1 hc
      rw [Bool.eq_false_iff]
      intro hblank
      exact hattached ⟨name, c, hname, hblank⟩
    have hbare : bare (bare cs) = bare cs := by
      rw [bare, htrim]
      exact List.rdropWhile_idempotent _ _
    rw [hbare]

end Operand

namespace Registers

variable {pool : Pool} {r : Registers} {is : List Instruction}

/-! ## Entries -/

theorem map_fst_put (name : Register) (a : Address) (bases : List (Register × Address)) :
    (put name a bases).map Prod.fst =
      if name ∈ bases.map Prod.fst then bases.map Prod.fst else bases.map Prod.fst ++ [name] := by
  induction bases with
  | nil => rfl
  | cons p bases ih =>
    rw [put]
    by_cases hp : p.1 = name
    · simp [hp]
    · rw [if_neg hp, List.map_cons, ih, List.map_cons]
      by_cases hmem : name ∈ bases.map Prod.fst
      · rw [if_pos hmem, if_pos (List.mem_cons_of_mem _ hmem)]
      · rw [if_neg hmem, if_neg (fun h => (List.mem_cons.1 h).elim (Ne.symm hp) hmem),
          List.cons_append]

/-- **Step.** No register is entered twice. -/
theorem nodup_observe (h : (r.bases.map Prod.fst).Nodup) (pool : Pool) (i : Instruction) :
    ((r.observe pool i).bases.map Prod.fst).Nodup := by
  rw [observe_eq_assign]
  cases r.assignment? pool i with
  | none => exact h
  | some p =>
    rw [assign, set, map_fst_put]
    split
    · exact h
    · rename_i hnew
      rw [← List.concat_eq_append]
      exact List.Nodup.concat hnew h

/-- **Run.** -/
theorem nodup_after (pool : Pool) (is : List Instruction) :
    ((after pool is).bases.map Prod.fst).Nodup := by
  induction is using List.reverseRecOn with
  | nil => exact List.nodup_nil
  | append_singleton is i ih =>
    rw [after_append_singleton]
    exact nodup_observe ih pool i

/-- The entries are what a lookup finds. -/
theorem mem_after_iff {k : Register} {v : Address} :
    (k, v) ∈ (after pool is).bases ↔ (after pool is).bases.lookup k = some v := by
  have hnodup := nodup_after pool is
  rw [List.lookup_eq_some_iff]
  refine ⟨fun h => ?_, fun h => ?_⟩
  · obtain ⟨front, back, hsplit⟩ := List.append_of_mem h
    refine ⟨front, back, hsplit, fun p hp => ?_⟩
    rw [hsplit, List.map_append, List.nodup_append] at hnodup
    have hne := hnodup.2.2 p.1 (List.mem_map_of_mem hp) k (by simp)
    simpa using Ne.symm hne
  · obtain ⟨front, back, hsplit, -⟩ := h
    rw [hsplit]
    exact List.mem_append_right _ List.mem_cons_self

/-! ## Names -/

/-- An instruction of a run assigns to a register, and this is the text that it names the register
by. -/
def AssignsThrough (pool : Pool) (is : List Instruction) (name : List Char) : Prop :=
  ∃ before i later v, is = before ++ i :: later ∧ i.destination? = some name ∧
    (after pool before).assignment? pool i = some (Operand.register name, v)

theorem exists_assignsThrough {k : Register} {v : Address} (h : (k, v) ∈ (after pool is).bases) :
    ∃ name, AssignsThrough pool is name ∧ k = Operand.register name := by
  obtain ⟨before, i, later, hsplit, hassigned, -⟩ := lookup_after_iff.1 (mem_after_iff.1 h)
  obtain ⟨⟨name, hname, rfl⟩, -⟩ := assignment?_cases hassigned
  exact ⟨name, ⟨before, i, later, v, hsplit, hname, hassigned⟩, rfl⟩

/-- What was assigned through a text is known to the end of the run. -/
theorem exists_mem_of_assignsThrough {name : List Char} (h : AssignsThrough pool is name) :
    ∃ v, (Operand.register name, v) ∈ (after pool is).bases := by
  obtain ⟨before, i, later, v, rfl, -, hassigned⟩ := h
  have hstep : ((after pool (before ++ [i])).bases.lookup (Operand.register name)).isSome := by
    rw [after_append_singleton, lookup_observe_iff.2 (Or.inl hassigned)]
    rfl
  have hend := isSome_lookup_after_append (before ++ [i]) later hstep
  rw [List.append_assoc, List.singleton_append] at hend
  obtain ⟨w, hw⟩ := Option.isSome_iff_exists.1 hend
  exact ⟨w, mem_after_iff.2 hw⟩

/-- **Entries are found under their keys** exactly if nothing was assigned through a detached
text. -/
theorem entries_found_iff (pool : Pool) (is : List Instruction) :
    (∀ k v, (k, v) ∈ (after pool is).bases →
      (∃ name, AssignsThrough pool is name ∧ k = Operand.register name ∧
        (after pool is).base? name = some v) ∧
        (Operand.register k = k → (after pool is).base? k = some v)) ∧
    ((∀ k v, (k, v) ∈ (after pool is).bases →
      Operand.register k = k ∧ (after pool is).base? k = some v) ↔
      ∀ name, AssignsThrough pool is name → ¬ Operand.Detached name) := by
  have hfound : ∀ k v, (k, v) ∈ (after pool is).bases → Operand.register k = k →
      (after pool is).base? k = some v := by
    intro k v hmem hkey
    rw [base?, hkey]
    exact mem_after_iff.1 hmem
  refine ⟨?_, ?_, ?_⟩
  · intro k v hmem
    obtain ⟨name, hname, rfl⟩ := exists_assignsThrough hmem
    exact ⟨⟨name, hname, rfl, mem_after_iff.1 hmem⟩, hfound _ v hmem⟩
  · intro hall name hname
    obtain ⟨v, hmem⟩ := exists_mem_of_assignsThrough hname
    exact Operand.register_register_iff.1 (hall _ v hmem).1
  · intro hattached k v hmem
    obtain ⟨name, hname, rfl⟩ := exists_assignsThrough hmem
    have hkey := Operand.register_register_iff.2 (hattached name hname)
    exact ⟨hkey, hfound _ v hmem hkey⟩

/-- `LDR R0 !,=0x10` -/
def detachedLoad : Instruction := ⟨0x1000, ['L', 'D', 'R'], "R0 !,=0x10".toList⟩

/-- **An entry that its key does not find.** The key ends in a blank. -/
theorem entry_lost :
    (['R', '0', ' '], 0x10) ∈ (after (fun _ => none) [detachedLoad]).bases ∧
      (after (fun _ => none) [detachedLoad]).base? ['R', '0', ' '] = none ∧
      Operand.register ['R', '0', ' '] ≠ ['R', '0', ' '] := by
  decide

end Registers

end FirmScan
