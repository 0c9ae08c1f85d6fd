import FirmScan.JumpTable.Slot
import Mathlib.Algebra.Group.Nat.Defs

/-!
# The checks of a slot

What a check reports, for any disassembler. A slot fails one of the tests and has exactly one
problem, or it passes them all and the report shows the entry that the machine's probe found
(`check_cases`). A slot is valid in the second case only (`check_valid_iff`).
-/

namespace FirmScan

universe u

namespace JumpTable

theorem toNat_slotAddress (t : JumpTable) (slot : UInt32) :
    (t.slotAddress slot).toNat = (t.base.toNat + 4 * slot.toNat) % 2 ^ 64 := by
  have := slot.toNat_lt
  rw [slotAddress, UInt64.toNat_add, UInt64.toNat_mul, UInt32.toNat_toUInt64]
  simp only [show (4 : UInt64).toNat = 4 from rfl]
  omega

/-- A table is far shorter than the address space, so no two slots meet. -/
theorem slotAddress_inj {t : JumpTable} {slot slot' : UInt32}
    (h : t.slotAddress slot = t.slotAddress slot') :
    slot = slot' := by
  have hnat := congrArg UInt64.toNat h
  rw [toNat_slotAddress, toNat_slotAddress] at hnat
  have := slot.toNat_lt
  have := slot'.toNat_lt
  exact UInt32.toNat_inj.1 (by omega)

theorem inCode_iff {t : JumpTable} {w : Word} :
    t.inCode w.toUInt64 ↔ t.codeStart.toNat ≤ w.toNat ∧ w.toNat < t.codeStop.toNat := by
  simp [inCode, UInt64.le_iff_toNat_le, UInt64.lt_iff_toNat_lt]

variable {σ : Type u} [Disassembler σ]

theorem screen_eq_ok_iff {s : σ} {isInstruction : Word → Bool} {t : JumpTable} {slot : UInt32}
    {w : Word} :
    t.screen s isInstruction slot = .ok w ↔
      Disassembler.readWord? s (t.slotAddress slot) = some w ∧ isInstruction w = false ∧
        t.inCode w.toUInt64 := by
  rw [screen]
  cases Disassembler.readWord? s (t.slotAddress slot) with
  | none => simp
  | some raw =>
    simp only [Option.some.injEq]
    split
    · rename_i hinstr
      refine ⟨fun h => (by cases h), ?_⟩
      rintro ⟨rfl, hnot, -⟩
      simp [hinstr] at hnot
    · rename_i hinstr
      split
      · rename_i hcode
        refine ⟨fun h => ?_, fun h => congrArg _ h.1⟩
        cases h
        exact ⟨rfl, by simpa using hinstr, hcode⟩
      · rename_i hcode
        refine ⟨fun h => (by cases h), ?_⟩
        rintro ⟨rfl, -, hin⟩
        exact absurd hin hcode

/-- A slot that fails one of the first three tests leads nowhere and has one problem. -/
theorem screen_eq_error {s : σ} {isInstruction : Word → Bool} {t : JumpTable} {slot : UInt32}
    {r : SlotReport} (h : t.screen s isInstruction slot = .error r) :
    ∃ raw notes problem, r = t.failure slot raw notes problem := by
  rw [screen] at h
  split at h
  · cases h
    exact ⟨_, _, _, rfl⟩
  · split at h
    · cases h
      exact ⟨_, _, _, rfl⟩
    · split at h <;> cases h
      exact ⟨_, _, _, rfl⟩

/-- **The two outcomes of a check**: a failure with one problem, or an entry that the probe
found. -/
theorem check_cases (s : σ) (m : Machine) (t : JumpTable) (slot : UInt32) :
    (∃ raw notes problem, t.check s m slot = t.failure slot raw notes problem) ∨
      ∃ w e notes, t.screen s m.isInstruction slot = .ok w ∧ m.probe? s w.toUInt64 = some e ∧
        t.check s m slot =
          ⟨slot, t.slotAddress slot, some w, some e.mode, some e.address, notes, []⟩ := by
  rw [check]
  cases hscreen : t.screen s m.isInstruction slot with
  | error r => exact Or.inl (screen_eq_error hscreen)
  | ok w =>
    simp only [resolve]
    cases hprobe : m.probe? s w.toUInt64 with
    | none => exact Or.inl ⟨_, _, _, rfl⟩
    | some e => exact Or.inr ⟨w, e, _, rfl, hprobe, rfl⟩

theorem check_slot (s : σ) (m : Machine) (t : JumpTable) (slot : UInt32) :
    (t.check s m slot).slot = slot := by
  rcases check_cases s m t slot with ⟨raw, notes, problem, h⟩ | ⟨w, e, notes, -, -, h⟩
  · rw [h, failure]
  · rw [h]

theorem check_address (s : σ) (m : Machine) (t : JumpTable) (slot : UInt32) :
    (t.check s m slot).address = t.slotAddress slot := by
  rcases check_cases s m t slot with ⟨raw, notes, problem, h⟩ | ⟨w, e, notes, -, -, h⟩
  · rw [h, failure]
  · rw [h]

/-- A slot without a problem leads somewhere. -/
theorem isValid_check (s : σ) (m : Machine) (t : JumpTable) (slot : UInt32) :
    (t.check s m slot).isValid = (t.check s m slot).problems.isEmpty := by
  rcases check_cases s m t slot with ⟨raw, notes, problem, h⟩ | ⟨w, e, notes, -, -, h⟩
  · rw [h, failure]
    rfl
  · rw [h]
    rfl

/-- The report shows the word that was read. -/
theorem check_raw (s : σ) (m : Machine) (t : JumpTable) (slot : UInt32) :
    (t.check s m slot).raw = Disassembler.readWord? s (t.slotAddress slot) := by
  unfold check screen
  cases Disassembler.readWord? s (t.slotAddress slot) with
  | none => rfl
  | some raw =>
    by_cases hinstr : m.isInstruction raw
    · simp [hinstr, failure]
    · by_cases hcode : t.inCode raw.toUInt64
      · cases hprobe : m.probe? s raw.toUInt64 <;> simp [hinstr, hcode, resolve, hprobe, failure]
      · simp [hinstr, hcode, failure]

/-- A check asks for words and for the starts of functions, and for nothing else. -/
theorem check_congr {s s' : σ}
    (hread : ∀ a, Disassembler.readWord? s' a = Disassembler.readWord? s a)
    (hstarts : ∀ a, Disassembler.startsFunction s' a = Disassembler.startsFunction s a)
    (m : Machine) (t : JumpTable) (slot : UInt32) : t.check s' m slot = t.check s m slot := by
  simp only [check, screen, resolve, Machine.probe?, hread, hstarts]

/-- **A slot is valid** exactly when its word passes the tests and the probe finds the entry that
the report shows. -/
theorem check_valid_iff {s : σ} {m : Machine} {t : JumpTable} {slot : UInt32} {mode : Mode}
    {target : Address} :
    ((t.check s m slot).isValid ∧ (t.check s m slot).mode = some mode ∧
        (t.check s m slot).target = some target) ↔
      ∃ w, Disassembler.readWord? s (t.slotAddress slot) = some w ∧ m.isInstruction w = false ∧
        t.inCode w.toUInt64 ∧ m.probe? s w.toUInt64 = some ⟨mode, target⟩ := by
  constructor
  · intro ⟨_, hmode, htarget⟩
    rcases check_cases s m t slot with ⟨raw, notes, problem, h⟩ | ⟨w, e, notes, hok, hprobe, h⟩
    · rw [h, failure] at htarget
      cases htarget
    · rw [h] at hmode htarget
      cases hmode
      cases htarget
      obtain ⟨hread, hinstr, hcode⟩ := screen_eq_ok_iff.1 hok
      exact ⟨w, hread, hinstr, hcode, hprobe⟩
  · intro ⟨w, hread, hinstr, hcode, hprobe⟩
    have hok := screen_eq_ok_iff.2 ⟨hread, hinstr, hcode⟩
    simp [check, hok, resolve, hprobe, SlotReport.isValid]

end JumpTable

end FirmScan
