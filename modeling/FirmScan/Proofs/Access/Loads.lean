import FirmScan.Proofs.Access.Provenance
import FirmScan.Proofs.Access.Refinement

/-!
# A load reports what it assigns

The target of a load is reported with what is known before it. The load then changes what is known,
and the value that it assigns is worked out a second time. This file shows that the two agree, from
any knowledge of the registers and for any inline data.

**Fetching** (`Fetches`). A load fetches its own literal, the datum at a displacement from the
program counter, or the datum at a displacement from a register that is known. Displacements are
added in the integers and reduced modulo 2^64. What is fetched is what is assigned
(`assignment?_eq_some_iff`). It comes before anything else that a target could be (`target?_read`):
the place that is read, or a number that is only found in the text, is reported and not assigned.

**Theorem (`load_assigns_target`).** What a load assigns was reported as its target, and what it
fetches is assigned. A load may overwrite the register that it goes by, since the target is taken
from the registers before it.
-/

namespace FirmScan

namespace Instruction

variable {i : Instruction}

theorem operand_of_namesLiteral {v : UInt64} (h : i.NamesLiteral v) : i.operand = .literal v := by
  obtain ⟨source, hsource, hliteral⟩ := h
  rw [operand_of_source? hsource, Operand.parse_of_isLiteral hliteral]

/-- **What the source can be.** -/
theorem operand_cases (i : Instruction) :
    i.operand = .other ∨ (∃ v, i.NamesLiteral v ∧ i.operand = .literal v) ∨
      ∃ base offset, i.NamesPlace base offset ∧ i.operand = Operand.ofPlace base offset := by
  cases hsource : i.source? with
  | none => exact Or.inl (by rw [operand, hsource]; rfl)
  | some source =>
    rw [operand_of_source? hsource]
    rcases Operand.parse_cases source with hother | ⟨v, hv, hliteral⟩ | ⟨base, offset, hplace, heq⟩
    · exact Or.inl hother
    · exact Or.inr (Or.inl ⟨v, ⟨source, hsource, hv⟩, hliteral⟩)
    · exact Or.inr (Or.inr ⟨base, offset, ⟨source, hsource, hplace⟩, heq⟩)

end Instruction

namespace Registers

variable {pool : Pool} {r : Registers} {i : Instruction}

theorem base?_set (r : Registers) (name : List Char) (a : Address) :
    (r.set (Operand.register name) a).base? name = some a := by
  rw [base?, set, Program.lookup_put, if_pos rfl]

/-! ## Fetching -/

/-- The value that a load takes from the listing. -/
inductive Fetches (pool : Pool) (r : Registers) (i : Instruction) (v : UInt64) : Prop
  | literal (names : i.NamesLiteral v)
  | nearby {base : List Char} {offset : Int64} (names : i.NamesPlace base offset)
      (pc : Operand.register base = ['P', 'C'])
      (datum : pool (displaced i.address (8 + offset.toInt)) = some v)
  | pointed {base : List Char} {offset : Int64} {b : Address} (names : i.NamesPlace base offset)
      (notPc : Operand.register base ≠ ['P', 'C'])
      (known : r.base? (Operand.register base) = some b)
      (datum : pool (displaced b offset.toInt) = some v)

theorem add_pcAhead_eq_displaced (a : Address) (offset : Int64) :
    a + pcAhead + offset.toUInt64 = displaced a (8 + offset.toInt) := by
  rw [← add_pcAhead_add_toUInt64, Int64.ofInt_toInt]

theorem loaded?_pcRelative (offset : Int64) :
    loaded? pool r i.address (.pcRelative offset) =
      pool (displaced i.address (8 + offset.toInt)) := by
  simp only [loaded?, literal?, Option.or_none, add_pcAhead_eq_displaced]

theorem loaded?_baseOffset (base : Register) (offset : Int64) :
    loaded? pool r i.address (.baseOffset base offset) =
      (r.base? base).bind fun b => pool (displaced b offset.toInt) := by
  simp only [loaded?, literal?, Option.none_or, add_toUInt64_eq_displaced]

/-- A value is loaded exactly if it is fetched. -/
theorem loaded?_operand_iff {v : UInt64} :
    loaded? pool r i.address i.operand = some v ↔ Fetches pool r i v := by
  constructor
  · intro h
    rcases i.operand_cases with hother | ⟨w, hw, hliteral⟩ | ⟨base, offset, hplace, heq⟩
    · rw [hother] at h
      cases h
    · rw [hliteral] at h
      cases h
      exact .literal hw
    · rw [heq, Operand.ofPlace] at h
      by_cases hpc : Operand.register base = ['P', 'C']
      · rw [if_pos hpc, loaded?_pcRelative] at h
        exact .nearby hplace hpc h
      · rw [if_neg hpc, loaded?_baseOffset] at h
        obtain ⟨b, hb, hdatum⟩ := Option.bind_eq_some_iff.1 h
        exact .pointed hplace hpc hb hdatum
  · intro h
    cases h with
    | literal hnames =>
      rw [Instruction.operand_of_namesLiteral hnames]
      rfl
    | nearby hnames hpc hdatum =>
      rw [Instruction.operand_of_namesPlace hnames, Operand.ofPlace, if_pos hpc, loaded?_pcRelative,
        hdatum]
    | pointed hnames hpc hknown hdatum =>
      rw [Instruction.operand_of_namesPlace hnames, Operand.ofPlace, if_neg hpc, loaded?_baseOffset,
        hknown, Option.bind_some, hdatum]

theorem assignment?_eq_some_iff (hread : Access.ofMnemonic? i.mnemonic = some .read)
    {name : Register} {v : Address} :
    r.assignment? pool i = some (name, v) ↔
      (∃ destination, i.destination? = some destination ∧ name = Operand.register destination) ∧
        Fetches pool r i v := by
  rw [← loaded?_operand_iff]
  constructor
  · intro h
    obtain ⟨hdestination, ⟨-, hloaded⟩ | ⟨hother, -⟩⟩ := assignment?_cases h
    · exact ⟨hdestination, hloaded⟩
    · exact absurd hread hother
  · intro h
    obtain ⟨⟨destination, hdestination, rfl⟩, hloaded⟩ := h
    rw [assignment?, if_pos hread, hdestination, Option.bind_some, hloaded, Option.map_some]

/-! ## Targets -/

/-- The target of a load that fetches nothing: the place if its base is known, or else a number in
the text. -/
def place? (r : Registers) (i : Instruction) : Option Address :=
  match i.operand with
  | .baseOffset base offset =>
    match r.base? base with
    | some b => some (b + offset.toUInt64)
    | none => absolute? i.operands
  | .pcRelative _ => none
  | _ => absolute? i.operands

/-- **What is loaded comes first** among the targets of a load. -/
theorem target?_read (pool : Pool) (r : Registers) (i : Instruction) :
    r.target? pool i .read = (loaded? pool r i.address i.operand).or (r.place? i) := by
  rw [target?_of_isMemory rfl, if_pos rfl, place?]
  cases i.operand with
  | literal v => rfl
  | pcRelative offset => simp only [loaded?, Option.or_none]
  | other => rfl
  | baseOffset base offset =>
    simp only [loaded?, literal?, Option.none_or]
    cases r.base? base with
    | none => rfl
    | some b => cases hdatum : pool (b + offset.toUInt64) <;> simp [hdatum]

theorem target?_of_fetches {v : UInt64} (h : Fetches pool r i v) :
    r.target? pool i .read = some v := by
  rw [target?_read, loaded?_operand_iff.2 h, Option.some_or]

/-- **A load reports what it assigns and assigns what it fetches.** -/
theorem load_assigns_target (pool : Pool) (r : Registers) (i : Instruction)
    (hread : Access.ofMnemonic? i.mnemonic = some .read) :
    r.observe pool i = r.assign (r.assignment? pool i) ∧
    (∀ name v, r.assignment? pool i = some (name, v) →
      (∃ destination, i.destination? = some destination ∧ name = Operand.register destination) ∧
        r.target? pool i .read = some v) ∧
    ∀ v, Fetches pool r i v → r.target? pool i .read = some v ∧
      ∀ destination, i.destination? = some destination →
        r.assignment? pool i = some (Operand.register destination, v) ∧
          (r.observe pool i).base? destination = some v := by
  refine ⟨observe_eq_assign pool r i, ?_, ?_⟩
  · intro name v h
    obtain ⟨hdestination, hfetches⟩ := (assignment?_eq_some_iff hread).1 h
    exact ⟨hdestination, target?_of_fetches hfetches⟩
  · intro v hfetches
    refine ⟨target?_of_fetches hfetches, ?_⟩
    intro destination hdestination
    have hassigned : r.assignment? pool i = some (Operand.register destination, v) :=
      (assignment?_eq_some_iff hread).2 ⟨⟨destination, hdestination, rfl⟩, hfetches⟩
    refine ⟨hassigned, ?_⟩
    rw [observe_eq_assign, hassigned]
    exact base?_set r destination v

/-- `LDR R4,[R4,#-8]`. -/
def reload : Instruction := ⟨0x1000, ['L', 'D', 'R'], "R4,[R4,#-8]".toList⟩

/-- One datum, four bytes below the end of the address space. -/
def topWord : Pool := fun a => if a = 0xFFFFFFFFFFFFFFFC then some 7 else none

/-- The load goes by the register that it overwrites, and its place wraps around. -/
theorem load_assigns_target_reload :
    Access.ofMnemonic? reload.mnemonic = some .read ∧
      (⟨[(['R', '4'], 4)]⟩ : Registers).assignment? topWord reload = some (['R', '4'], 7) ∧
      (⟨[(['R', '4'], 4)]⟩ : Registers).target? topWord reload .read = some 7 := by
  have hread : Access.ofMnemonic? reload.mnemonic = some .read := by decide
  have hassigned : (⟨[(['R', '4'], 4)]⟩ : Registers).assignment? topWord reload =
      some (['R', '4'], 7) := by decide
  exact ⟨hread, hassigned,
    ((load_assigns_target topWord ⟨[(['R', '4'], 4)]⟩ reload hread).2.1 _ _ hassigned).2⟩

end Registers

end FirmScan
