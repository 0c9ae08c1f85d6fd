import FirmScan.Proofs.JumpTable.Stability

/-!
# The verdict on a slot

The tests of a slot are made in order, and the first that fails decides. This file says so for any
disassembler and any machine, also for one that sees two entries in a pointer.

**One outcome** (`Verdict`, `check_verdict`). A check ends in one of five ways, and each of them
states what the disassembler answered: no word, an instruction, a pointer out of range, a pointer
none of whose entries is confirmed, or the first entry that is.

**Theorem (`check_reports_one_outcome`).** A report has one problem or one target. Each problem is
reported exactly when its test is the first to fail, and a target exactly when all tests pass.

**Bounds** (`check_target_bounds`). The range test is made on the pointer, and the target is found
behind it. A Thumb pointer is one more than its target, so the target may lie one below the code,
and this is the only way out of it (`check_target_below_code`).
-/

namespace FirmScan

universe u

variable {σ : Type u} [Disassembler σ]

/-! ## The first entry that is confirmed -/

/-- The disassembler confirms an entry: it has a listing there, and the function that it knows there
starts there and not before. -/
def Disassembler.Confirms (s : σ) (a : Address) : Prop :=
  listing s a ≠ [] ∧ ∃ f, functionAt? s a = some f ∧ f.entry = a

theorem Disassembler.startsFunction_iff_confirms {s : σ} {a : Address} :
    startsFunction s a ↔ Confirms s a := by
  unfold startsFunction Confirms
  cases functionAt? s a with
  | none => simp
  | some f => simp

namespace Machine

open Disassembler (Confirms startsFunction_iff_confirms)

theorem probe?_eq_some_iff {m : Machine} {s : σ} {p : Address} {e : Entry} :
    m.probe? s p = some e ↔
      Confirms s e.address ∧
        ∃ before after, m.entries p = before ++ e :: after ∧
          ∀ x ∈ before, ¬ Confirms s x.address := by
  simp only [probe?, List.find?_eq_some_iff_append, ← startsFunction_iff_confirms,
    Bool.not_eq_true', Bool.not_eq_true]

theorem probe?_eq_none_iff {m : Machine} {s : σ} {p : Address} :
    m.probe? s p = none ↔ ∀ e ∈ m.entries p, ¬ Confirms s e.address := by
  simp only [probe?, List.find?_eq_none, startsFunction_iff_confirms]

end Machine

/-! ## The five outcomes -/

namespace JumpTable

open Disassembler (Confirms readWord?)

/-- The code is where the table says. -/
def Points (t : JumpTable) (w : Word) : Prop :=
  t.codeStart.toNat ≤ w.toNat ∧ w.toNat < t.codeStop.toNat

/-- What a check may report, and what the disassembler must have answered for it. Each outcome but
the first rests on the tests before it. -/
inductive Verdict (s : σ) (m : Machine) (t : JumpTable) (slot : UInt32) : SlotReport → Prop
  | unreadable (hread : readWord? s (t.slotAddress slot) = none) :
    Verdict s m t slot (t.failure slot none [] .unreadable)
  | instruction {w : Word} {notes : List String} (hread : readWord? s (t.slotAddress slot) = some w)
    (hinstr : m.isInstruction w) : Verdict s m t slot (t.failure slot (some w) notes .instruction)
  | outOfRange {w : Word} {notes : List String} (hread : readWord? s (t.slotAddress slot) = some w)
    (hinstr : ¬ m.isInstruction w) (hcode : ¬ t.Points w) :
    Verdict s m t slot (t.failure slot (some w) notes .outOfRange)
  | noFunction {w : Word} {notes : List String} (hread : readWord? s (t.slotAddress slot) = some w)
    (hinstr : ¬ m.isInstruction w) (hcode : t.Points w)
    (hnone : ∀ e ∈ m.entries w.toUInt64, ¬ Confirms s e.address) :
    Verdict s m t slot (t.failure slot (some w) notes .noFunction)
  | leads {w : Word} {e : Entry} {notes : List String}
      (hread : readWord? s (t.slotAddress slot) = some w)
    (hinstr : ¬ m.isInstruction w) (hcode : t.Points w) (hprobe : m.probe? s w.toUInt64 = some e) :
    Verdict s m t slot ⟨slot, t.slotAddress slot, some w, some e.mode, some e.address, notes, []⟩

/-- **A check ends in one of the five ways.** -/
theorem check_verdict (s : σ) (m : Machine) (t : JumpTable) (slot : UInt32) :
    Verdict s m t slot (t.check s m slot) := by
  rw [check, screen]
  cases hread : readWord? s (t.slotAddress slot) with
  | none => exact .unreadable hread
  | some w =>
    by_cases hinstr : m.isInstruction w
    · simp only [hinstr, if_true]
      exact .instruction hread hinstr
    · simp only [hinstr, Bool.false_eq_true, if_false]
      by_cases hcode : t.inCode w.toUInt64
      · have hpoints : t.Points w := inCode_iff.1 hcode
        simp only [hcode, if_true, resolve]
        cases hprobe : m.probe? s w.toUInt64 with
        | none => exact .noFunction hread hinstr hpoints (Machine.probe?_eq_none_iff.1 hprobe)
        | some e => exact .leads hread hinstr hpoints hprobe
      · simp only [hcode, Bool.false_eq_true, if_false]
        exact .outOfRange hread hinstr (mt inCode_iff.2 hcode)

/-- Which of its tests a slot fails first, told from the problems of the report. -/
theorem Verdict.problems_iff {s : σ} {m : Machine} {t : JumpTable} {slot : UInt32} {r : SlotReport}
    (h : Verdict s m t slot r) :
    (r.problems = [.unreadable] ↔ readWord? s (t.slotAddress slot) = none) ∧
    (r.problems = [.instruction] ↔
      ∃ w, readWord? s (t.slotAddress slot) = some w ∧ m.isInstruction w) ∧
    (r.problems = [.outOfRange] ↔
      ∃ w, readWord? s (t.slotAddress slot) = some w ∧ ¬ m.isInstruction w ∧ ¬ t.Points w) ∧
    (r.problems = [.noFunction] ↔
      ∃ w, readWord? s (t.slotAddress slot) = some w ∧ ¬ m.isInstruction w ∧ t.Points w ∧
        ∀ e ∈ m.entries w.toUInt64, ¬ Confirms s e.address) := by
  -- The answers of the disassembler decide every existence on the right, so each outcome settles
  -- all four.
  cases h with
  | unreadable hread => simp [failure, hread]
  | instruction hread hinstr => simp [failure, hread, hinstr]
  | outOfRange hread hinstr hcode => simp [failure, hread, hinstr, hcode]
  | noFunction hread hinstr hcode hnone => simpa [failure, hread, hinstr, hcode] using hnone
  | leads hread hinstr hcode hprobe =>
    obtain ⟨hconfirmed, before, after, hsplit, -⟩ := Machine.probe?_eq_some_iff.1 hprobe
    have hmem : _ ∈ m.entries _ := hsplit ▸ List.mem_append_right before List.mem_cons_self
    simpa [hread, hinstr, hcode] using ⟨_, hmem, hconfirmed⟩

/-- **One outcome, and the right one.** A report has at most one problem; it has none exactly if it
has a target, exactly if it has a mode, exactly if it is valid. It shows the word that was read. An
instruction is reported as such wherever the code lies; a pointer out of range, if the word is no
instruction; a missing function, if the pointer is in range and none of its entries is confirmed. A
valid slot leads to the first entry that is. -/
theorem check_reports_one_outcome (s : σ) (m : Machine) (t : JumpTable) (slot : UInt32) :
    let r := t.check s m slot
    let read := readWord? s (t.slotAddress slot)
    r.problems.length ≤ 1 ∧
    (r.problems = [] ↔ r.target.isSome) ∧ (r.target.isSome ↔ r.mode.isSome) ∧
      (r.mode.isSome ↔ r.isValid) ∧
    r.raw = read ∧ (r.raw = none ↔ r.problems = [.unreadable]) ∧
    (r.problems = [.instruction] ↔ ∃ w, read = some w ∧ m.isInstruction w) ∧
    (r.problems = [.outOfRange] ↔ ∃ w, read = some w ∧ ¬ m.isInstruction w ∧ ¬ t.Points w) ∧
    (r.problems = [.noFunction] ↔ ∃ w, read = some w ∧ ¬ m.isInstruction w ∧ t.Points w ∧
      ∀ e ∈ m.entries w.toUInt64, ¬ Confirms s e.address) ∧
    ∀ mode target, (r.isValid ∧ r.mode = some mode ∧ r.target = some target ↔
      ∃ w before after, read = some w ∧ ¬ m.isInstruction w ∧ t.Points w ∧
        m.entries w.toUInt64 = before ++ ⟨mode, target⟩ :: after ∧ Confirms s target ∧
        ∀ e ∈ before, ¬ Confirms s e.address) := by
  intro r read
  obtain ⟨hunreadable, hinstruction, houtOfRange, hnoFunction⟩ :=
    (check_verdict s m t slot).problems_iff
  have hraw : r.raw = read := check_raw s m t slot
  have hshape : r.problems.length ≤ 1 ∧ (r.problems = [] ↔ r.target.isSome) ∧
      (r.target.isSome ↔ r.mode.isSome) ∧ (r.mode.isSome ↔ r.isValid) := by
    rcases check_cases s m t slot with ⟨raw, notes, problem, h⟩ | ⟨w, e, notes, -, -, h⟩
    · simp [r, h, failure, SlotReport.isValid]
    · simp [r, h, SlotReport.isValid]
  obtain ⟨hone, htarget, hmode, hvalid⟩ := hshape
  refine ⟨hone, htarget, hmode, hvalid, hraw, ?_, hinstruction, houtOfRange, hnoFunction, ?_⟩
  · rw [hraw]
    exact hunreadable.symm
  · intro mode target
    rw [check_valid_iff]
    constructor
    · intro h
      obtain ⟨w, hread, hinstr, hcode, hprobe⟩ := h
      obtain ⟨hconfirmed, before, after, hsplit, hfirst⟩ := Machine.probe?_eq_some_iff.1 hprobe
      exact ⟨w, before, after, hread, by simp [hinstr], inCode_iff.1 hcode, hsplit, hconfirmed,
        hfirst⟩
    · intro h
      obtain ⟨w, before, after, hread, hinstr, hcode, hsplit, hconfirmed, hfirst⟩ := h
      have hprobe := Machine.probe?_eq_some_iff.2 ⟨hconfirmed, before, after, hsplit, hfirst⟩
      exact ⟨w, hread, by simpa using hinstr, inCode_iff.2 hcode, hprobe⟩

end JumpTable

/-! ## Bounds -/

/-- An entry of a pointer is the pointer itself or, in Thumb code, one below an odd pointer. -/
theorem Machine.address_of_mem_entries {m : Machine} {w : Word} {e : Entry}
    (h : e ∈ m.entries w.toUInt64) :
    e.address.toNat = w.toNat ∨
      e.mode = .thumb ∧ w.toNat % 2 = 1 ∧ e.address.toNat + 1 = w.toNat := by
  cases m with
  | armThumb alignment hne =>
    simp only [entries, and_one_eq_one_iff, List.mem_append, List.mem_ite_nil_right,
      List.mem_singleton] at h
    rcases h with ⟨-, rfl⟩ | ⟨hodd, rfl⟩
    · exact Or.inl (UInt32.toNat_toUInt64 w)
    · refine Or.inr ⟨rfl, hodd, ?_⟩
      simp only [toNat_pred hodd]
      omega
  | x86 =>
    rw [List.mem_singleton.1 h]
    exact Or.inl (UInt32.toNat_toUInt64 w)
  | generic => cases h

namespace JumpTable

/-- **A target lies in the code, or one below it.** The target of a valid slot is below the end of
the code. It is not below the start either, unless the start is odd and the slot points to it in
Thumb mode: the pointer is then in the code, and its target is the address before. -/
theorem check_target_bounds {s : σ} {m : Machine} {t : JumpTable} {slot : UInt32} {mode : Mode}
    {target : Address} (h : (t.check s m slot).isValid ∧ (t.check s m slot).mode = some mode ∧
      (t.check s m slot).target = some target) :
    target < t.codeStop ∧
      (t.codeStart ≤ target ∨
        mode = .thumb ∧ t.codeStart.toNat % 2 = 1 ∧ target.toNat + 1 = t.codeStart.toNat ∧
          (t.check s m slot).raw.map UInt32.toUInt64 = some t.codeStart) := by
  obtain ⟨w, hread, -, hcode, hprobe⟩ := check_valid_iff.1 h
  have hmem := List.mem_of_find?_eq_some hprobe
  have hin : t.codeStart.toNat ≤ w.toNat ∧ w.toNat < t.codeStop.toNat := inCode_iff.1 hcode
  simp only [UInt64.lt_iff_toNat_lt, UInt64.le_iff_toNat_le, check_raw, hread, Option.map_some,
    Option.some.injEq, ← UInt64.toNat_inj, UInt32.toNat_toUInt64]
  rcases Machine.address_of_mem_entries hmem with haddress | ⟨hmode, hodd, haddress⟩
  · simp only at haddress
    omega
  · simp only at haddress hmode
    refine ⟨by omega, ?_⟩
    by_cases hstart : t.codeStart.toNat = w.toNat
    · exact Or.inr ⟨hmode, by omega, by omega, hstart.symm⟩
    · exact Or.inl (by omega)

/-- The code of the table starts at the very address that the slot holds, which is one above the
function. -/
def oddStart : JumpTable := ⟨0x1000, 0x8001, 0x9000⟩

/-- The pointer is in the code, and the target is not. -/
theorem check_target_below_code :
    let r := oddStart.check Snapshot.stub (.ofArchitecture .armThumb) 0
    r.isValid ∧ r.target = some 0x8000 ∧
      ¬ (oddStart.codeStart ≤ 0x8000 ∧ 0x8000 < oddStart.codeStop) := by
  decide +kernel

theorem check_target_bounds_oddStart :
    let r := oddStart.check Snapshot.stub (.ofArchitecture .armThumb) 0
    (r.isValid ∧ r.mode = some .thumb ∧ r.target = some 0x8000) ∧ 0x8000 < oddStart.codeStop ∧
      oddStart.codeStart.toNat % 2 = 1 ∧ r.raw.map UInt32.toUInt64 = some oddStart.codeStart := by
  intro r
  have hvalid : r.isValid ∧ r.mode = some .thumb ∧ r.target = some 0x8000 := by decide +kernel
  obtain ⟨hstop, hstart | ⟨-, hodd, -, hraw⟩⟩ := check_target_bounds hvalid
  · exact absurd hstart (by decide)
  · exact ⟨hvalid, hstop, hodd, hraw⟩

end JumpTable

end FirmScan
