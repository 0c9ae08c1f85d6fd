import FirmScan.Proofs.Access.Loads

/-!
# What is known changes one register at a time

A survey follows registers through operands that may be any text. This file says what becomes of the
table of known registers over a run of instructions: nothing is lost, and nothing is changed on the
side.

**Idle instructions** (`LoadsNothing`, `AddsNothing`). A load assigns nothing exactly if its operand
is not followed, its base is not known or the datum is missing. An addition assigns nothing exactly
if it has neither two nor three operands, its source is not known, or its last operand is not an
immediate marked by `#`.

**Steps** (`LocalStep`). An instruction keeps every register that is known. The only one that it can
change is the one that its first operand names, and only loads and additions change one.

**Runs** (`LastAssigned`). A register is known exactly if it was assigned to, and holds what was
assigned to it last (`lookup_after_iff`).

**Theorem (`knowledge_local_and_additive`)** says this of every step and of every run from the start
of a survey.
-/

namespace FirmScan

/-- No addition is a load. -/
theorem Access.ofMnemonic?_ne_read_of_add {m : List Char} (h : startsWith "ADD" m = true) :
    ofMnemonic? m ≠ some .read := by
  obtain ⟨rest, rfl⟩ := List.isPrefixOf_iff_prefix.1 h
  intro hread
  have hload : isConditional "LDR" ("ADD".toList ++ rest) = false := rfl
  rw [ofMnemonic?, hload, if_neg Bool.false_ne_true] at hread
  split_ifs at hread <;> cases hread

theorem Operand.markedImmediate?_eq_none_iff {cs : List Char} :
    markedImmediate? cs = none ↔ (Text.trimStart cs).head? ≠ some '#' ∨ immediate? cs = none := by
  rw [markedImmediate?]
  by_cases h : (Text.trimStart cs).head? = some '#'
  · rw [if_pos h]
    exact ⟨Or.inr, fun hor => hor.resolve_left fun hne => hne h⟩
  · rw [if_neg h]
    exact ⟨fun _ => Or.inl h, fun _ => rfl⟩

namespace Instruction

/-- The operands of an addition: the destination, the source and the immediate. Of two operands the
first is both destination and source. -/
def addition? (i : Instruction) : Option (List Char × List Char × List Char) :=
  match Operand.split i.operands with
  | [destination, source, immediate] => some (destination, source, immediate)
  | [destination, immediate] => some (destination, destination, immediate)
  | _ => none

theorem addition?_eq_none_iff {i : Instruction} :
    i.addition? = none ↔
      (Operand.split i.operands).length ≠ 2 ∧ (Operand.split i.operands).length ≠ 3 := by
  rw [addition?]
  rcases Operand.split i.operands with -
    | ⟨first, - | ⟨second, - | ⟨third, - | ⟨fourth, rest⟩⟩⟩⟩ <;> simp

end Instruction

namespace Registers

variable {pool : Pool} {r : Registers} {i : Instruction}

/-! ## Idle instructions -/

/-- Why a load assigns nothing. -/
inductive LoadsNothing (pool : Pool) (r : Registers) (i : Instruction) : Prop
  | unfollowed (operand : i.operand = .other)
  | missingNearby {offset : Int64} (operand : i.operand = .pcRelative offset)
      (datum : pool (displaced i.address (8 + offset.toInt)) = none)
  | unknownBase {base : Register} {offset : Int64} (operand : i.operand = .baseOffset base offset)
      (unknown : r.base? base = none)
  | missingPointed {base : Register} {offset : Int64} {b : Address}
      (operand : i.operand = .baseOffset base offset) (known : r.base? base = some b)
      (datum : pool (displaced b offset.toInt) = none)

/-- Why an addition assigns nothing. -/
inductive AddsNothing (r : Registers) (i : Instruction) : Prop
  | count (two : (Operand.split i.operands).length ≠ 2)
      (three : (Operand.split i.operands).length ≠ 3)
  | unknownSource {destination source immediate : List Char}
      (operands : i.addition? = some (destination, source, immediate))
      (unknown : r.base? source = none)
  | unmarked {destination source immediate : List Char}
      (operands : i.addition? = some (destination, source, immediate))
      (mark : (Text.trimStart immediate).head? ≠ some '#')
  | unreadable {destination source immediate : List Char}
      (operands : i.addition? = some (destination, source, immediate))
      (number : Operand.immediate? immediate = none)

theorem loaded?_operand_eq_none_iff :
    loaded? pool r i.address i.operand = none ↔ LoadsNothing pool r i := by
  refine ⟨fun h => ?_, fun h => ?_⟩
  · cases hoperand : i.operand with
    | literal v =>
      rw [hoperand] at h
      cases h
    | pcRelative offset =>
      rw [hoperand, loaded?_pcRelative] at h
      exact .missingNearby hoperand h
    | baseOffset base offset =>
      rw [hoperand, loaded?_baseOffset] at h
      cases hbase : r.base? base with
      | none => exact .unknownBase hoperand hbase
      | some b =>
        rw [hbase, Option.bind_some] at h
        exact .missingPointed hoperand hbase h
    | other => exact .unfollowed hoperand
  · cases h with
    | unfollowed hoperand =>
      rw [hoperand]
      rfl
    | missingNearby hoperand hdatum => rw [hoperand, loaded?_pcRelative, hdatum]
    | unknownBase hoperand hunknown => rw [hoperand, loaded?_baseOffset, hunknown, Option.bind_none]
    | missingPointed hoperand hknown hdatum =>
      rw [hoperand, loaded?_baseOffset, hknown, Option.bind_some, hdatum]

/-- **When a load is idle.** -/
theorem assignment?_eq_none_iff_of_read (hread : Access.ofMnemonic? i.mnemonic = some .read) :
    r.assignment? pool i = none ↔ LoadsNothing pool r i := by
  rw [assignment?, if_pos hread, ← loaded?_operand_eq_none_iff]
  cases hdestination : i.destination? with
  | some destination => rw [Option.bind_some, Option.map_eq_none_iff]
  | none =>
    -- An instruction without a first operand has no second one.
    have hsource : i.source? = none := by
      rw [Instruction.destination?, List.getElem?_eq_none_iff] at hdestination
      exact List.getElem?_eq_none (Nat.le_succ_of_le hdestination)
    have hoperand : i.operand = .other := by
      rw [Instruction.operand, hsource]
      rfl
    rw [hoperand]
    exact iff_of_true rfl rfl

theorem sum?_eq_none_iff {destination source immediate : List Char} :
    r.sum? destination source immediate = none ↔
      r.base? source = none ∨ (Text.trimStart immediate).head? ≠ some '#' ∨
        Operand.immediate? immediate = none := by
  rw [← Operand.markedImmediate?_eq_none_iff, sum?]
  cases r.base? source with
  | none => exact iff_of_true rfl (Or.inl rfl)
  | some a => simp

theorem assignment?_of_add (hadd : Access.startsWith "ADD" i.mnemonic = true) :
    r.assignment? pool i = i.addition?.bind fun p => r.sum? p.1 p.2.1 p.2.2 := by
  rw [assignment?, if_neg (Access.ofMnemonic?_ne_read_of_add hadd), if_pos hadd,
    Instruction.addition?]
  rcases Operand.split i.operands with -
    | ⟨first, - | ⟨second, - | ⟨third, - | ⟨fourth, rest⟩⟩⟩⟩ <;> rfl

/-- **When an addition is idle.** -/
theorem assignment?_eq_none_iff_of_add (hadd : Access.startsWith "ADD" i.mnemonic = true) :
    r.assignment? pool i = none ↔ AddsNothing r i := by
  rw [assignment?_of_add hadd]
  cases hparts : i.addition? with
  | none =>
    obtain ⟨htwo, hthree⟩ := Instruction.addition?_eq_none_iff.1 hparts
    exact iff_of_true rfl (.count htwo hthree)
  | some p =>
    obtain ⟨destination, source, immediate⟩ := p
    rw [Option.bind_some, sum?_eq_none_iff]
    refine ⟨fun h => ?_, fun h => ?_⟩
    · rcases h with hunknown | hmark | hnumber
      · exact .unknownSource hparts hunknown
      · exact .unmarked hparts hmark
      · exact .unreadable hparts hnumber
    · cases h with
      | count htwo hthree =>
        cases hparts.symm.trans (Instruction.addition?_eq_none_iff.2 ⟨htwo, hthree⟩)
      | unknownSource hoperands hunknown =>
        cases hparts.symm.trans hoperands
        exact Or.inl hunknown
      | unmarked hoperands hmark =>
        cases hparts.symm.trans hoperands
        exact Or.inr (Or.inl hmark)
      | unreadable hoperands hnumber =>
        cases hparts.symm.trans hoperands
        exact Or.inr (Or.inr hnumber)

/-! ## Steps -/

/-- What an instruction may do to what is known. -/
structure LocalStep (pool : Pool) (r : Registers) (i : Instruction) (r' : Registers) : Prop where
  assigned : r' = r.assign (r.assignment? pool i)
  kept : ∀ k, (r.bases.lookup k).isSome → (r'.bases.lookup k).isSome
  changed : ∀ k, r'.bases.lookup k ≠ r.bases.lookup k →
    (∃ destination, i.destination? = some destination ∧ k = Operand.register destination) ∧
      (Access.ofMnemonic? i.mnemonic = some .read ∨ Access.startsWith "ADD" i.mnemonic = true)
  load : Access.ofMnemonic? i.mnemonic = some .read →
    (LoadsNothing pool r i → r' = r) ∧ (¬ LoadsNothing pool r i → (r.assignment? pool i).isSome)
  addition : Access.startsWith "ADD" i.mnemonic = true →
    (AddsNothing r i → r' = r) ∧ (¬ AddsNothing r i → (r.assignment? pool i).isSome)

/-- A register holds what the instruction assigns to it, or what it held if nothing is assigned to
it. -/
theorem lookup_observe_iff {k : Register} {v : Address} :
    (r.observe pool i).bases.lookup k = some v ↔
      r.assignment? pool i = some (k, v) ∨
        (∀ w, r.assignment? pool i ≠ some (k, w)) ∧ r.bases.lookup k = some v := by
  rw [observe_eq_assign]
  cases r.assignment? pool i with
  | none => simp [assign]
  | some p =>
    obtain ⟨name, a⟩ := p
    rw [assign, set, Program.lookup_put]
    by_cases hk : k = name
    · simp [hk]
    · simp [hk, Ne.symm hk]

/-- An instruction that assigns nothing leaves all registers as they are. -/
theorem idle_or_assigned {idle : Prop} (h : r.assignment? pool i = none ↔ idle) :
    (idle → r.observe pool i = r) ∧ (¬ idle → (r.assignment? pool i).isSome) := by
  refine ⟨fun hidle => ?_, fun hbusy => ?_⟩
  · rw [observe_eq_assign, h.2 hidle]
    rfl
  · exact Option.isSome_iff_ne_none.2 (mt h.1 hbusy)

/-- What an instruction changes, it assigns to. -/
theorem exists_assignment?_of_ne {k : Register}
    (h : (r.observe pool i).bases.lookup k ≠ r.bases.lookup k) :
    ∃ v, r.assignment? pool i = some (k, v) := by
  by_contra hnone
  rw [not_exists] at hnone
  refine h (Option.ext fun v => ?_)
  rw [lookup_observe_iff]
  exact ⟨fun hor => (hor.resolve_left (hnone v)).2, fun hv => Or.inr ⟨hnone, hv⟩⟩

/-- **Step.** An instruction is local, whatever is known before it. -/
theorem localStep_observe (pool : Pool) (r : Registers) (i : Instruction) :
    LocalStep pool r i (r.observe pool i) where
  assigned := observe_eq_assign pool r i
  kept := by
    intro k hk
    by_cases hsame : (r.observe pool i).bases.lookup k = r.bases.lookup k
    · rwa [hsame]
    · obtain ⟨v, hv⟩ := exists_assignment?_of_ne hsame
      rw [lookup_observe_iff.2 (Or.inl hv)]
      rfl
  changed := by
    intro k hk
    obtain ⟨v, hv⟩ := exists_assignment?_of_ne hk
    obtain ⟨hdestination, ⟨hread, -⟩ | ⟨-, source, a, n, -, hadds, -⟩⟩ := assignment?_cases hv
    · exact ⟨hdestination, Or.inl hread⟩
    · exact ⟨hdestination, Or.inr hadds.1⟩
  load := fun hread => idle_or_assigned (assignment?_eq_none_iff_of_read hread)
  addition := fun hadd => idle_or_assigned (assignment?_eq_none_iff_of_add hadd)

/-! ## Runs -/

/-- Some instruction of a run assigns the value to the register, and no later one assigns to it
again. -/
def LastAssigned (pool : Pool) (is : List Instruction) (k : Register) (v : Address) : Prop :=
  ∃ before i later, is = before ++ i :: later ∧
    (after pool before).assignment? pool i = some (k, v) ∧
    ∀ more j rest w, later = more ++ j :: rest →
      (after pool (before ++ i :: more)).assignment? pool j ≠ some (k, w)

theorem lastAssigned_concat_iff {is : List Instruction} {k : Register} {v : Address} :
    LastAssigned pool (is ++ [i]) k v ↔
      (after pool is).assignment? pool i = some (k, v) ∨
        (∀ w, (after pool is).assignment? pool i ≠ some (k, w)) ∧ LastAssigned pool is k v := by
  refine ⟨fun h => ?_, fun h => ?_⟩
  · obtain ⟨before, j, later, hsplit, hassigned, hlater⟩ := h
    rcases List.eq_nil_or_concat' later with rfl | ⟨init, last, rfl⟩
    · obtain ⟨rfl, hlast⟩ := List.append_inj' hsplit rfl
      cases hlast
      exact Or.inl hassigned
    · rw [← List.cons_append, ← List.append_assoc] at hsplit
      obtain ⟨rfl, hlast⟩ := List.append_inj' hsplit rfl
      cases hlast
      refine Or.inr ⟨fun w => hlater init i [] w rfl, before, j, init, rfl, hassigned, ?_⟩
      intro more j' rest w hinit
      exact hlater more j' (rest ++ [i]) w (by rw [hinit, List.append_assoc, List.cons_append])
  · rcases h with hassigned | ⟨hnone, before, j, later, rfl, hassigned, hlater⟩
    · refine ⟨is, i, [], rfl, hassigned, ?_⟩
      intro more j rest w hnil
      exact absurd hnil.symm (List.append_ne_nil_of_right_ne_nil _ (List.cons_ne_nil _ _))
    · refine ⟨before, j, later ++ [i], by simp, hassigned, ?_⟩
      intro more j' rest w hlast
      rcases List.eq_nil_or_concat' rest with rfl | ⟨init, last, rfl⟩
      · obtain ⟨rfl, hi⟩ := List.append_inj' hlast rfl
        cases hi
        exact hnone w
      · rw [← List.cons_append, ← List.append_assoc] at hlast
        obtain ⟨hinit, -⟩ := List.append_inj' hlast rfl
        exact hlater more j' init w hinit

/-- **Run.** A register holds what was assigned to it last. -/
theorem lookup_after_iff {is : List Instruction} {k : Register} {v : Address} :
    (after pool is).bases.lookup k = some v ↔ LastAssigned pool is k v := by
  induction is using List.reverseRecOn with
  | nil =>
    refine iff_of_false (fun h => ?_) (fun h => ?_)
    · cases h
    · obtain ⟨before, i, later, hsplit, -⟩ := h
      exact absurd hsplit.symm (List.append_ne_nil_of_right_ne_nil _ (List.cons_ne_nil _ _))
  | append_singleton is i ih =>
    rw [after_append_singleton, lookup_observe_iff, lastAssigned_concat_iff, ih]

/-- **Run.** What is known stays known. -/
theorem isSome_lookup_after_append (before later : List Instruction) {k : Register}
    (h : ((after pool before).bases.lookup k).isSome) :
    ((after pool (before ++ later)).bases.lookup k).isSome := by
  induction later using List.reverseRecOn with
  | nil => rwa [List.append_nil]
  | append_singleton later i ih =>
    rw [← List.append_assoc, after_append_singleton]
    exact (localStep_observe pool _ i).kept k ih

/-- **What is known is changed locally and never lost**, in every step and over every run. -/
theorem knowledge_local_and_additive (pool : Pool) :
    (∀ before i, LocalStep pool (after pool before) i (after pool (before ++ [i]))) ∧
    (∀ before later k, ((after pool before).bases.lookup k).isSome →
      ((after pool (before ++ later)).bases.lookup k).isSome) ∧
    ∀ is k v, (after pool is).bases.lookup k = some v ↔ LastAssigned pool is k v := by
  refine ⟨?_, ?_, ?_⟩
  · intro before i
    rw [after_append_singleton]
    exact localStep_observe pool (after pool before) i
  · intro before later k hk
    exact isSome_lookup_after_append before later hk
  · intro is k v
    exact lookup_after_iff

/-- A base, two additions that overwrite one register, and a load from a base that is not known. -/
def rebase : List Instruction :=
  [⟨0x1000, ['L', 'D', 'R'], "R4,=0x40000000".toList⟩,
    ⟨0x1004, ['A', 'D', 'D'], "R5,R4,#0x100".toList⟩, ⟨0x1008, ['A', 'D', 'D'], "r5!,#0x4".toList⟩,
    ⟨0x100C, ['L', 'D', 'R'], "R5,[R6,#0x10]".toList⟩]

/-- The second addition is the last to assign, and it names the register in its own way. -/
theorem lastAssigned_rebase :
    (after (fun _ => none) rebase).bases = [(['R', '4'], 0x40000000), (['R', '5'], 0x40000104)] ∧
      LastAssigned (fun _ => none) rebase ['R', '5'] 0x40000104 := by
  have hbases : (after (fun _ => none) rebase).bases =
      [(['R', '4'], 0x40000000), (['R', '5'], 0x40000104)] := by
    decide +kernel
  refine ⟨hbases,
    ((knowledge_local_and_additive fun _ => none).2.2 rebase ['R', '5'] 0x40000104).1 ?_⟩
  rw [hbases]
  rfl

end Registers

end FirmScan
