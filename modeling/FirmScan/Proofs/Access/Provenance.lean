import FirmScan.Proofs.Access.Assignment
import FirmScan.Proofs.Access.Printed
import FirmScan.Proofs.Listing.Written
import Mathlib.Algebra.Ring.Int.Defs
import Mathlib.Data.List.Forall2
import Mathlib.Data.List.Induction

/-!
# No address is invented

A survey reports addresses that it takes from the listing or computes from what it took. This file
says for any listing, however malformed, where each of them comes from.

**Registers** (`Derivable`). What a register is known to hold is an *origin*, a datum of the listing
or a literal of a load that was passed, plus the immediates of some of the additions that were
passed.

**Targets** (`Explained`). The target of a load or store is the literal of the instruction itself, a
derivable base displaced by the offset of the instruction, a datum, or a number of at least 0x100
that is spelled in the operands.

**Theorem (`no_invented_address`).** Both hold throughout a survey. An access relative to the
program counter that meets no datum is left out: without its line, the same operations are found.

The proof follows the survey. `observe_cases` says what one instruction can do to the registers, and
`derivable_observe` draws the conclusion for one step, `derivable_after` for a run. `target?_cases`
says what a target can be.
-/

namespace FirmScan

/-! ## What instructions say -/

namespace Instruction

/-- The instruction has the literal `=v` for its source. -/
def NamesLiteral (i : Instruction) (v : UInt64) : Prop :=
  ∃ source, i.source? = some source ∧ Operand.IsLiteral source v

/-- The instruction has a place in brackets for its source. -/
def NamesPlace (i : Instruction) (base : List Char) (offset : Int64) : Prop :=
  ∃ source, i.source? = some source ∧ Operand.IsPlace source base offset

variable {i : Instruction}

theorem exists_source?_of_operand (h : i.operand ≠ .other) :
    ∃ source, i.source? = some source ∧ i.operand = Operand.parse source := by
  cases hsource : i.source? with
  | some source => exact ⟨source, rfl, operand_of_source? hsource⟩
  | none =>
    rw [operand, hsource] at h
    exact absurd rfl h

theorem namesLiteral_of_operand {v : UInt64} (h : i.operand = .literal v) : i.NamesLiteral v := by
  obtain ⟨source, hsource, hparse⟩ := exists_source?_of_operand (i := i) (by simp [h])
  exact ⟨source, hsource, Operand.isLiteral_of_parse (hparse.symm.trans h)⟩

theorem namesPlace_of_operand {name : Register} {offset : Int64}
    (h : i.operand = .baseOffset name offset) :
    ∃ base, i.NamesPlace base offset := by
  obtain ⟨source, hsource, hparse⟩ := exists_source?_of_operand (i := i) (by simp [h])
  obtain ⟨base, -, hplace⟩ := Operand.isPlace_of_parse (hparse.symm.trans h)
  exact ⟨base, source, hsource, hplace⟩

theorem operand_of_namesPlace {base : List Char} {offset : Int64} (h : i.NamesPlace base offset) :
    i.operand = Operand.ofPlace base offset := by
  obtain ⟨source, hsource, hplace⟩ := h
  rw [operand_of_source? hsource, Operand.parse_of_isPlace hplace]

end Instruction

/-! ## Provenance -/

/-- Where an address starts from: the data of the listing and the literals of earlier loads. -/
inductive Origin (data : List (Address × UInt64)) (earlier : List Instruction) (v : UInt64) : Prop
  | datum (a : Address) (h : (a, v) ∈ data)
  | literal (i : Instruction) (h : i ∈ earlier) (read : Access.ofMnemonic? i.mnemonic = some .read)
      (names : i.NamesLiteral v)

/-- The value is an origin plus the immediates of some earlier additions, modulo 2^64. -/
def Derivable (data : List (Address × UInt64)) (earlier : List Instruction) (v : Address) : Prop :=
  ∃ origin, Origin data earlier origin ∧
    ∃ additions immediates, additions.Sublist earlier ∧
      List.Forall₂ Instruction.AddsImmediate additions immediates ∧
      v = displaced origin (immediates.map Int64.toInt).sum

/-- What the target of a load or store can be. -/
inductive Explained (data : List (Address × UInt64)) (earlier : List Instruction) (i : Instruction)
    (target : Address) : Prop
  | literal (h : i.NamesLiteral target)
  | place {base : List Char} {offset : Int64} (h : i.NamesPlace base offset) {b : Address}
      (derivable : Derivable data earlier b) (eq : target = displaced b offset.toInt)
  | datum {a : Address} (h : (a, target) ∈ data)
  | spelled (h : Operand.Spells i.operands target) (large : 0x100 ≤ target.toNat)

section Derivable

variable {data : List (Address × UInt64)} {earlier later : List Instruction} {v : UInt64}

theorem Origin.mono (h : Origin data earlier v) (hsub : earlier.Sublist later) :
    Origin data later v := by
  cases h with
  | datum a h => exact .datum a h
  | literal i h read names => exact .literal i (hsub.subset h) read names

theorem displaced_zero (a : Address) : displaced a 0 = a := by
  rw [← add_toUInt64]
  exact UInt64.add_zero a

theorem Origin.derivable (h : Origin data earlier v) : Derivable data earlier v :=
  ⟨v, h, [], [], List.nil_sublist _, .nil, (displaced_zero v).symm⟩

theorem Derivable.mono (h : Derivable data earlier v) (hsub : earlier.Sublist later) :
    Derivable data later v := by
  obtain ⟨origin, horigin, additions, immediates, hadds, himm, rfl⟩ := h
  exact ⟨origin, horigin.mono hsub, additions, immediates, hadds.trans hsub, himm, rfl⟩

theorem displaced_displaced (a : Address) (m n : Int) :
    displaced (displaced a m) n = displaced a (m + n) := by
  simp only [← add_toUInt64, toUInt64_ofInt, UInt64.ofInt_add, UInt64.add_assoc]

theorem add_toUInt64_eq_displaced (a : Address) (n : Int64) :
    a + n.toUInt64 = displaced a n.toInt := by
  rw [← add_toUInt64, Int64.ofInt_toInt]

/-- An addition adds one more immediate. -/
theorem Derivable.add (h : Derivable data earlier v) {i : Instruction} {n : Int64}
    (hi : i.AddsImmediate n) :
    Derivable data (earlier ++ [i]) (v + n.toUInt64) := by
  obtain ⟨origin, horigin, additions, immediates, hadds, himm, rfl⟩ := h
  refine ⟨origin, horigin.mono (List.sublist_append_left _ _), additions ++ [i], immediates ++ [n],
    hadds.append (List.Sublist.refl _), List.rel_append himm (.cons hi .nil), ?_⟩
  rw [add_toUInt64_eq_displaced, displaced_displaced, List.map_append, List.sum_append]
  simp

end Derivable

/-! ## One instruction -/

namespace Registers

variable {pool : Pool} {r : Registers} {i : Instruction}

theorem mem_put {name : Register} {a : Address} {bases : List (Register × Address)}
    {p : Register × Address} (h : p ∈ put name a bases) : p = (name, a) ∨ p ∈ bases := by
  induction bases with
  | nil => simpa [put] using h
  | cons q bases ih =>
    rw [put] at h
    by_cases hq : q.1 = name
    · rw [if_pos hq] at h
      exact (List.mem_cons.1 h).imp_right (List.mem_cons_of_mem _)
    · rw [if_neg hq] at h
      rcases List.mem_cons.1 h with rfl | h
      · exact Or.inr List.mem_cons_self
      · exact (ih h).imp_right (List.mem_cons_of_mem _)

theorem exists_mem_of_base? {name : List Char} {a : Address} (h : r.base? name = some a) :
    ∃ p ∈ r.bases, p.2 = a := by
  obtain ⟨before, after, hsplit, -⟩ := List.lookup_eq_some_iff.1 h
  rw [hsplit]
  exact ⟨_, List.mem_append_right _ List.mem_cons_self, rfl⟩

/-- A load takes a literal or a datum. -/
theorem loaded?_cases {here : Address} {source : Operand} {v : UInt64}
    (h : loaded? pool r here source = some v) : source = .literal v ∨ ∃ a, pool a = some v := by
  cases source with
  | literal w =>
    cases h
    exact Or.inl rfl
  | pcRelative offset =>
    rw [loaded?, Option.or_none] at h
    · exact Or.inr ⟨_, h⟩
    · simp
  | baseOffset base offset =>
    obtain ⟨a, -, ha⟩ := Option.bind_eq_some_iff.1 h
    exact Or.inr ⟨_, ha⟩
  | other => cases h

/-- **What an instruction can do to the registers**: nothing, or put a literal of its own, a datum,
or the sum of a known value and its own immediate into one of them. -/
theorem observe_cases (pool : Pool) (r : Registers) (i : Instruction) :
    r.observe pool i = r ∨ ∃ name v, r.observe pool i = r.set name v ∧
      ((Access.ofMnemonic? i.mnemonic = some .read ∧ i.NamesLiteral v) ∨ (∃ a, pool a = some v) ∨
        ∃ source a n, r.base? source = some a ∧ i.AddsImmediate n ∧ v = a + n.toUInt64) := by
  rw [observe_eq_assign]
  cases h : r.assignment? pool i with
  | none => exact Or.inl rfl
  | some p =>
    obtain ⟨name, v⟩ := p
    refine Or.inr ⟨name, v, rfl, ?_⟩
    rcases (assignment?_cases h).2 with ⟨hread, hloaded⟩ | ⟨-, hsum⟩
    · rcases loaded?_cases hloaded with hliteral | hdatum
      · exact Or.inl ⟨hread, Instruction.namesLiteral_of_operand hliteral⟩
      · exact Or.inr (Or.inl hdatum)
    · exact Or.inr (Or.inr hsum)

theorem absolute?_cases {operands : List Char} {v : UInt64} (h : absolute? operands = some v) :
    Operand.Spells operands v ∧ 0x100 ≤ v.toNat := by
  obtain ⟨hscan, hlarge⟩ := Option.filter_eq_some_iff.1 h
  exact ⟨Operand.spells_of_scanImmediate? hscan,
    UInt64.le_iff_toNat_le.1 (of_decide_eq_true hlarge)⟩

theorem target?_of_isMemory {k : Access} (hk : k.isMemory = true) :
    r.target? pool i k = (if k = .read then literal? pool i.address i.operand else none).or
      (match i.operand with
        | .baseOffset base offset =>
          match r.base? base with
          | some a =>
            some (if k = .read then (pool (a + offset.toUInt64)).getD (a + offset.toUInt64)
              else a + offset.toUInt64)
          | none => absolute? i.operands
        | .pcRelative _ => none
        | _ => absolute? i.operands) := by
  simp only [target?, hk, Instruction.operand, Instruction.source?]
  rcases Operand.split i.operands with _ | ⟨first, _ | ⟨source, rest⟩⟩ <;> rfl

/-- **What the target of a load or store can be.** -/
theorem target?_cases {k : Access} (hk : k.isMemory = true) {target : Address}
    (h : r.target? pool i k = some target) :
    i.NamesLiteral target ∨ (∃ a, pool a = some target) ∨
      (∃ base offset name b, i.NamesPlace base offset ∧ r.base? name = some b ∧
        target = b + offset.toUInt64) ∨
      Operand.Spells i.operands target ∧ 0x100 ≤ target.toNat := by
  rw [target?_of_isMemory hk] at h
  cases hoperand : i.operand with
  | literal v =>
    simp only [hoperand, Option.or_eq_some_iff] at h
    rcases h with h | ⟨-, h⟩
    · split at h <;> cases h
      exact Or.inl (Instruction.namesLiteral_of_operand hoperand)
    · exact Or.inr (Or.inr (Or.inr (absolute?_cases h)))
  | pcRelative offset =>
    simp only [hoperand, Option.or_none] at h
    split at h
    · exact Or.inr (Or.inl ⟨_, h⟩)
    · cases h
  | baseOffset name offset =>
    obtain ⟨base, hplace⟩ := Instruction.namesPlace_of_operand hoperand
    simp only [hoperand, literal?, ite_self, Option.none_or] at h
    cases hb : r.base? name with
    | none =>
      rw [hb] at h
      exact Or.inr (Or.inr (Or.inr (absolute?_cases h)))
    | some b =>
      simp only [hb, Option.some.injEq] at h
      split at h
      · cases hpool : pool (b + offset.toUInt64) with
        | none =>
          rw [hpool, Option.getD_none] at h
          exact Or.inr (Or.inr (Or.inl ⟨base, offset, name, b, hplace, hb, h.symm⟩))
        | some v =>
          rw [hpool, Option.getD_some] at h
          exact Or.inr (Or.inl ⟨_, h ▸ hpool⟩)
      · exact Or.inr (Or.inr (Or.inl ⟨base, offset, name, b, hplace, hb, h.symm⟩))
  | other =>
    simp only [hoperand, literal?, ite_self, Option.none_or] at h
    exact Or.inr (Or.inr (Or.inr (absolute?_cases h)))

/-- What is known after instructions. -/
def after (pool : Pool) (is : List Instruction) : Registers := is.foldl (observe pool) .empty

theorem after_append_singleton (pool : Pool) (is : List Instruction) (i : Instruction) :
    after pool (is ++ [i]) = (after pool is).observe pool i := by
  simp [after]

end Registers

/-! ## A whole survey -/

section Survey

variable {data : List (Address × UInt64)}

theorem mem_of_poolOf {a : Address} {v : UInt64} (h : Survey.poolOf data a = some v) :
    (a, v) ∈ data := by
  obtain ⟨before, after, hsplit, -⟩ := List.lookup_eq_some_iff.1 h
  rw [← List.mem_reverse, hsplit]
  exact List.mem_append_right _ List.mem_cons_self

/-- **Step.** After an instruction, what registers hold is derivable if it was before. -/
theorem derivable_observe {r : Registers} {earlier : List Instruction}
    (h : ∀ p ∈ r.bases, Derivable data earlier p.2) (i : Instruction) :
    ∀ p ∈ (r.observe (Survey.poolOf data) i).bases, Derivable data (earlier ++ [i]) p.2 := by
  have hkeep : ∀ p ∈ r.bases, Derivable data (earlier ++ [i]) p.2 :=
    fun p hp => (h p hp).mono (List.sublist_append_left _ _)
  rcases Registers.observe_cases (Survey.poolOf data) r i with hsame | ⟨name, v, hset, hv⟩
  · rw [hsame]
    exact hkeep
  · have hnew : Derivable data (earlier ++ [i]) v := by
      rcases hv with ⟨hread, hliteral⟩ | ⟨a, ha⟩ | ⟨source, a, n, ha, hadds, rfl⟩
      · exact (Origin.literal i (by simp) hread hliteral).derivable
      · exact (Origin.datum a (mem_of_poolOf ha)).derivable
      · obtain ⟨p, hp, rfl⟩ := Registers.exists_mem_of_base? ha
        exact (h p hp).add hadds
    intro p hp
    rw [hset] at hp
    rcases Registers.mem_put hp with rfl | hp
    · exact hnew
    · exact hkeep p hp

/-- **Run.** What registers hold after instructions is derivable from them. -/
theorem derivable_after (data : List (Address × UInt64)) (is : List Instruction) :
    ∀ p ∈ (Registers.after (Survey.poolOf data) is).bases, Derivable data is p.2 := by
  induction is using List.reverseRecOn with
  | nil =>
    intro p hp
    cases hp
  | append_singleton is i ih =>
    rw [Registers.after_append_singleton]
    exact derivable_observe ih i

theorem explained_of_target? {earlier : List Instruction} {i : Instruction} {k : Access}
    (hk : k.isMemory = true) {target : Address}
    (h : (Registers.after (Survey.poolOf data) earlier).target? (Survey.poolOf data) i k =
      some target) :
    Explained data earlier i target := by
  rcases Registers.target?_cases hk h with
    hliteral | ⟨a, ha⟩ | ⟨base, offset, name, b, hplace, hb, rfl⟩ | ⟨hspelled, hlarge⟩
  · exact .literal hliteral
  · exact .datum (mem_of_poolOf ha)
  · obtain ⟨p, hp, rfl⟩ := Registers.exists_mem_of_base? hb
    exact .place hplace (derivable_after data earlier p hp) (add_toUInt64_eq_displaced _ _)
  · exact .spelled hspelled hlarge

theorem Survey.outcomes_cons_of_none {i : Instruction}
    (hkind : Access.ofMnemonic? i.mnemonic = none) (pool : Pool) (r : Registers)
    (is : List Instruction) : outcomes pool r (i :: is) = outcomes pool (r.observe pool i) is := by
  rw [outcomes, hkind]

theorem Survey.outcomes_cons_of_some {i : Instruction} {k : Access}
    (hkind : Access.ofMnemonic? i.mnemonic = some k) (pool : Pool) (r : Registers)
    (is : List Instruction) :
    outcomes pool r (i :: is) =
      (r.target? pool i k).map (⟨i.address, k, ·⟩) :: outcomes pool (r.observe pool i) is := by
  rw [outcomes, hkind]

theorem Survey.outcomes_append (pool : Pool) (r : Registers) (is js : List Instruction) :
    outcomes pool r (is ++ js) =
      outcomes pool r is ++ outcomes pool (is.foldl (Registers.observe pool) r) js := by
  induction is generalizing r with
  | nil => rfl
  | cons i is ih =>
    simp only [List.cons_append, outcomes, ih, List.foldl_cons]
    split <;> rfl

/-- An operation that is found belongs to an instruction, with what was known when it was
reached. -/
theorem Survey.exists_of_mem_outcomes {pool : Pool} {is : List Instruction} {r : Registers}
    {o : Operation} (h : some o ∈ outcomes pool r is) :
    ∃ earlier i later, is = earlier ++ i :: later ∧ o.address = i.address ∧
      Access.ofMnemonic? i.mnemonic = some o.kind ∧
      (earlier.foldl (Registers.observe pool) r).target? pool i o.kind = some o.target := by
  induction is generalizing r with
  | nil => cases h
  | cons i is ih =>
    have hlater (h : some o ∈ outcomes pool (r.observe pool i) is) :
        ∃ earlier j later, i :: is = earlier ++ j :: later ∧ o.address = j.address ∧
          Access.ofMnemonic? j.mnemonic = some o.kind ∧
          (earlier.foldl (Registers.observe pool) r).target? pool j o.kind = some o.target := by
      obtain ⟨earlier, j, later, rfl, hrest⟩ := ih h
      exact ⟨i :: earlier, j, later, rfl, hrest⟩
    cases hk : Access.ofMnemonic? i.mnemonic with
    | none =>
      rw [outcomes_cons_of_none hk] at h
      exact hlater h
    | some k =>
      rw [outcomes_cons_of_some hk] at h
      rcases List.mem_cons.1 h with heq | h
      · obtain ⟨target, htarget, rfl⟩ := Option.map_eq_some_iff.1 heq.symm
        exact ⟨[], i, is, rfl, rfl, hk, htarget⟩
      · exact hlater h

end Survey

/-! ## The program counter -/

theorem Access.not_startsWith_of_write {m : List Char} (h : ofMnemonic? m = some .write) :
    startsWith "ADD" m = false := by
  have hstr : startsWith "STR" m = true := by
    simp only [ofMnemonic?] at h
    split at h
    · cases h
    · split at h
      · rename_i hstr
        exact (Bool.and_eq_true_iff.1 hstr).1
      · split at h
        · cases h
        · split at h
          · cases h
          · split at h <;> cases h
  obtain ⟨rest, rfl⟩ := List.isPrefixOf_iff_prefix.1 hstr
  rfl

namespace Registers

variable {pool : Pool} {i : Instruction} {k : Access} {offset : Int64}

/-- An access relative to the program counter that meets no datum has no target. -/
theorem target?_of_pcRelative (r : Registers) (hk : k.isMemory = true)
    (hi : i.operand = .pcRelative offset)
    (hpool : pool (i.address + pcAhead + offset.toUInt64) = none) : r.target? pool i k = none := by
  rw [target?_of_isMemory hk, hi]
  simp only [literal?, hpool, ite_self, Option.or_none]

/-- Nor does it change what is known. -/
theorem observe_of_pcRelative (r : Registers) (hkind : Access.ofMnemonic? i.mnemonic = some k)
    (hk : k.isMemory = true) (hi : i.operand = .pcRelative offset)
    (hpool : pool (i.address + pcAhead + offset.toUInt64) = none) : r.observe pool i = r := by
  rw [observe_eq_assign, assignment?, hkind]
  cases k with
  | read =>
    have hloaded : loaded? pool r i.address i.operand = none := by
      simp only [hi, loaded?, literal?, hpool, Option.or_none]
    rw [if_pos rfl, hloaded]
    cases i.destination? <;> rfl
  | write =>
    rw [if_neg (by decide), Access.not_startsWith_of_write hkind]
    rfl
  | bitOr | bitAnd | bitXor => cases hk

end Registers

namespace Survey

theorem dataOf_append_instruction (before later : List Line) (i : Instruction) :
    dataOf (before ++ .instruction i :: later) = dataOf (before ++ later) := by
  simp [dataOf]

theorem instructionsOf_append_instruction (before later : List Line) (i : Instruction) :
    instructionsOf (before ++ .instruction i :: later) =
      instructionsOf before ++ i :: instructionsOf later := by
  simp [instructionsOf]

/-- The line of an access that meets no datum adds nothing but to the count of those left out. -/
theorem ofLines_of_pcRelative {before later : List Line} {i : Instruction} {k : Access}
    {offset : Int64} (hkind : Access.ofMnemonic? i.mnemonic = some k) (hk : k.isMemory = true)
    (hi : i.operand = .pcRelative offset)
    (hpool : poolOf (dataOf (before ++ later)) (i.address + Registers.pcAhead + offset.toUInt64) =
      none) :
    (ofLines (before ++ .instruction i :: later)).operations =
      (ofLines (before ++ later)).operations ∧
      (ofLines (before ++ .instruction i :: later)).skipped =
        (ofLines (before ++ later)).skipped + 1 := by
  have hlater (r : Registers) (is : List Instruction) :
      outcomes (poolOf (dataOf (before ++ later))) r (i :: is) =
        none :: outcomes (poolOf (dataOf (before ++ later))) r is := by
    rw [outcomes_cons_of_some hkind, r.observe_of_pcRelative hkind hk hi hpool,
      r.target?_of_pcRelative hk hi hpool, Option.map_none]
  have happend : instructionsOf (before ++ later) = instructionsOf before ++ instructionsOf later :=
    List.filterMap_append
  simp only [ofLines, dataOf_append_instruction, instructionsOf_append_instruction, happend,
    outcomes_append, hlater, List.filterMap_append, List.countP_append]
  refine ⟨rfl, ?_⟩
  rw [List.countP_cons_of_pos rfl, Nat.add_assoc]

theorem ofListing_of_pcRelative {before later : List String} {line : String} {i : Instruction}
    {k : Access} {base : List Char} {offset : Int64}
    (hline : Line.parse? line.toList = some (.instruction i))
    (hkind : Access.ofMnemonic? i.mnemonic = some k) (hk : k.isMemory = true)
    (hplace : i.NamesPlace base offset) (hpc : Operand.register base = ['P', 'C'])
    (hmissing : ∀ v, (displaced i.address (8 + offset.toInt), v) ∉
      dataOf ((before ++ line :: later).filterMap fun l => Line.parse? l.toList)) :
    (ofListing (before ++ line :: later)).operations = (ofListing (before ++ later)).operations ∧
      (ofListing (before ++ line :: later)).skipped =
        (ofListing (before ++ later)).skipped + 1 := by
  have hi : i.operand = .pcRelative offset := by
    rw [Instruction.operand_of_namesPlace hplace, Operand.ofPlace, if_pos hpc]
  have hread : ((before ++ line :: later).filterMap fun l => Line.parse? l.toList) =
      (before.filterMap fun l => Line.parse? l.toList) ++
        .instruction i :: later.filterMap fun l => Line.parse? l.toList := by
    simp [hline]
  rw [hread, dataOf_append_instruction] at hmissing
  have hwith : ofListing (before ++ line :: later) = _ := congrArg ofLines hread
  have hwithout : ofListing (before ++ later) = _ := congrArg ofLines List.filterMap_append
  rw [hwith, hwithout]
  refine ofLines_of_pcRelative hkind hk hi ?_
  rw [← Int64.ofInt_toInt offset, add_pcAhead_add_toUInt64]
  exact Option.eq_none_iff_forall_not_mem.2 fun v hv => hmissing v (mem_of_poolOf hv)

end Survey

/-- **No address is invented.** At each point of a survey, what registers are known to hold is
derivable from the instructions before. The target of each load or store is explained by its
instruction and those before. An access relative to the program counter that meets no datum is left
out. -/
theorem no_invented_address (lines : List String) :
    let read := lines.filterMap fun l => Line.parse? l.toList
    let data := Survey.dataOf read
    let pool := Survey.poolOf data
    (∀ earlier later, Survey.instructionsOf read = earlier ++ later →
      Survey.outcomes pool .empty (Survey.instructionsOf read) =
        Survey.outcomes pool .empty earlier ++ Survey.outcomes pool (.after pool earlier) later ∧
      ∀ p ∈ (Registers.after pool earlier).bases, Derivable data earlier p.2) ∧
    (∀ o ∈ (Survey.ofListing lines).operations, o.kind.isMemory →
      ∃ earlier i later, Survey.instructionsOf read = earlier ++ i :: later ∧
        o.address = i.address ∧
        Access.ofMnemonic? i.mnemonic = some o.kind ∧ Explained data earlier i o.target) ∧
    ∀ before line later i k base offset, lines = before ++ line :: later →
      Line.parse? line.toList = some (.instruction i) → Access.ofMnemonic? i.mnemonic = some k →
      k.isMemory → i.NamesPlace base offset → Operand.register base = ['P', 'C'] →
      (∀ v, (displaced i.address (8 + offset.toInt), v) ∉ data) →
      (Survey.ofListing lines).operations = (Survey.ofListing (before ++ later)).operations ∧
        (Survey.ofListing lines).skipped = (Survey.ofListing (before ++ later)).skipped + 1 := by
  intro read data pool
  refine ⟨fun earlier later hsplit => ⟨?_, derivable_after data earlier⟩, fun o ho hmemory => ?_,
    ?_⟩
  · rw [hsplit, Survey.outcomes_append]
    rfl
  · have hmem : some o ∈ Survey.outcomes pool .empty (Survey.instructionsOf read) := by
      obtain ⟨x, hx, rfl⟩ := List.mem_filterMap.1 ho
      exact hx
    obtain ⟨earlier, i, later, hsplit, haddress, hkind, htarget⟩ :=
      Survey.exists_of_mem_outcomes hmem
    exact ⟨earlier, i, later, hsplit, haddress, hkind, explained_of_target? hmemory htarget⟩
  · rintro before line later i k base offset rfl hline hkind hk hplace hpc hmissing
    exact Survey.ofListing_of_pcRelative hline hkind hk hplace hpc hmissing

end FirmScan
