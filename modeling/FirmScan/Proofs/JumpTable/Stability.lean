import FirmScan.Proofs.JumpTable.Resolution
import FirmScan.Proofs.Snapshot.Reachable

/-!
# Verdicts that stand

A snapshot may grow after a slot was checked. This file says which verdicts are final.

**Theorem (`check_stands`).** A valid slot stays valid with its mode and target, an instruction
remains one, and a pointer out of range remains out of range; a word that was read stays. Only a
slot that could not be read and a pointer that met no function may be judged anew.

The argument needs two things of the disassembler (`Disassembler.Persists`): a word that can be read
is read again, and a function that starts at an address still starts there. A pointer of a known
architecture leads to one entry at most, so a new function cannot draw it elsewhere
(`Machine.probe?_of_persists`). A growing snapshot has both properties, because its regions never
overlap.
-/

namespace FirmScan

universe u

/-! ## Any disassembler -/

/-- What is known in the first state is known in the second. -/
structure Disassembler.Persists {σ : Type u} [Disassembler σ] (s s' : σ) : Prop where
  readWord? : ∀ {a w}, readWord? s a = some w → readWord? s' a = some w
  startsFunction : ∀ {a}, startsFunction s a → startsFunction s' a

variable {σ : Type u} [Disassembler σ] {s s' : σ}

/-- An entry that was found is found again, since the pointer leads to no other. -/
theorem Machine.probe?_of_persists (h : Disassembler.Persists s s') {arch : Architecture} {w : Word}
    {e : Entry} (hprobe : (ofArchitecture arch).probe? s w.toUInt64 = some e) :
    (ofArchitecture arch).probe? s' w.toUInt64 = some e := by
  obtain ⟨hleads, hstarts⟩ := probe?_ofArchitecture_iff.1 hprobe
  exact probe?_ofArchitecture_iff.2 ⟨hleads, h.startsFunction hstarts⟩

namespace JumpTable

/-- The first three tests look at the word alone. -/
theorem screen_of_persists (h : Disassembler.Persists s s') (isInstruction : Word → Bool)
    (t : JumpTable) (slot : UInt32) {raw : Word}
    (hread : Disassembler.readWord? s (t.slotAddress slot) = some raw) :
    t.screen s' isInstruction slot = t.screen s isInstruction slot := by
  rw [screen, screen, hread, h.readWord? hread]

/-- **The whole report stands**, unless the slot could not be read or met no function. -/
theorem check_of_persists (h : Disassembler.Persists s s') (arch : Architecture) (t : JumpTable)
    (slot : UInt32) :
    t.check s' (.ofArchitecture arch) slot = t.check s (.ofArchitecture arch) slot ∨
      (t.check s (.ofArchitecture arch) slot).problems = [.unreadable] ∨
      (t.check s (.ofArchitecture arch) slot).problems = [.noFunction] := by
  cases hread : Disassembler.readWord? s (t.slotAddress slot) with
  | none =>
    refine Or.inr (Or.inl ?_)
    rw [check, screen, hread]
    rfl
  | some raw =>
    have hscreen := screen_of_persists h (Machine.ofArchitecture arch).isInstruction t slot hread
    rw [check, check, hscreen]
    cases t.screen s (Machine.ofArchitecture arch).isInstruction slot with
    | error r => exact Or.inl rfl
    | ok w =>
      simp only [resolve]
      cases hprobe : (Machine.ofArchitecture arch).probe? s w.toUInt64 with
      | none => exact Or.inr (Or.inr rfl)
      | some e => exact Or.inl (by rw [Machine.probe?_of_persists h hprobe])

end JumpTable

/-! ## Snapshots -/

open Snapshot (Call)

theorem Snapshot.Consistent.persists {s s' : Snapshot} (h : s.Consistent) (h' : s'.Consistent)
    (hext : s.Extends s') : Disassembler.Persists s s' where
  readWord? hread := h.readWord?_of_extends h' hext hread
  startsFunction hstarts := h.startsFunction_of_extends h' hext hstarts

/-- **Verdicts stand while a snapshot grows.** Whatever calls are made, successful or not, a valid
slot stays valid with its mode and target, instructions and pointers out of range are reported as
before, and a word that was read keeps its value. A report that changes was about a slot that could
not be read or a pointer without a function. -/
theorem JumpTable.check_stands {s : Snapshot} (h : s.Reachable) (calls : List Call)
    (arch : Architecture) (t : JumpTable) (slot : UInt32) :
    let before := t.check s (.ofArchitecture arch) slot
    let after := t.check (s.applyAll calls) (.ofArchitecture arch) slot
    (∀ mode target, before.isValid ∧ before.mode = some mode ∧ before.target = some target →
      after.isValid ∧ after.mode = some mode ∧ after.target = some target) ∧
    (before.problems = [.instruction] → after.problems = [.instruction]) ∧
    (before.problems = [.outOfRange] → after.problems = [.outOfRange]) ∧
    (∀ w, before.raw = some w → after.raw = some w) ∧
    (after ≠ before → before.problems = [.unreadable] ∨ before.problems = [.noFunction]) := by
  intro before after
  obtain ⟨hconsistent, hext⟩ := h.consistent.extends_applyAll calls
  have hpersists := h.consistent.persists hconsistent hext
  have hcases : after = before ∨ before.problems = [.unreadable] ∨
      before.problems = [.noFunction] :=
    check_of_persists hpersists arch t slot
  have hsame (hdone : before.problems ≠ [.unreadable] ∧ before.problems ≠ [.noFunction]) :
      after = before := by
    rcases hcases with hsame | hproblem | hproblem
    · exact hsame
    · exact absurd hproblem hdone.1
    · exact absurd hproblem hdone.2
  refine ⟨fun mode target hvalid => ?_, fun hproblem => ?_, fun hproblem => ?_, fun w hraw => ?_,
    fun hne => ?_⟩
  · have hnone : before.problems = [] := by
      have := hvalid.1
      simp only [SlotReport.isValid, Bool.and_eq_true, List.isEmpty_iff] at this
      exact this.1
    rw [hsame (by simp [hnone])]
    exact hvalid
  · rw [hsame (by simp [hproblem])]
    exact hproblem
  · rw [hsame (by simp [hproblem])]
    exact hproblem
  · rw [check_raw] at hraw ⊢
    exact hpersists.readWord? hraw
  · exact hcases.resolve_left hne

/-- A slot that leads to a Thumb function of one byte. -/
def Snapshot.stub : Snapshot :=
  run [.mapWords 0x1000 [0x8001], .addFunction ⟨"stub", 0x8000, none⟩ 1 ["00008000: BX LR"]]

/-- Calls that come close to it: a segment on the last byte of the slot, which is refused, one right
before the slot, a function at the very address that the slot holds, and a new name. -/
def Snapshot.nearCalls : List Call :=
  [.mapBytes 0x1003 [0], .mapBytes 0x0FFE [0, 0],
    .addFunction ⟨"next", 0x8001, none⟩ 3 ["00008001: NOP"], .rename 0x8000 "start"]

theorem JumpTable.check_stands_stub :
    let t : JumpTable := ⟨0x1000, 0x8000, 0x9000⟩
    let after := t.check (Snapshot.stub.applyAll Snapshot.nearCalls) (.ofArchitecture .armThumb) 0
    Snapshot.stub.Reachable ∧ after.isValid ∧ after.mode = some .thumb ∧
      after.target = some 0x8000 := by
  intro t after
  have hreach : Snapshot.stub.Reachable := Snapshot.reachable_run _
  have hvalid : (t.check Snapshot.stub (.ofArchitecture .armThumb) 0).isValid ∧
      (t.check Snapshot.stub (.ofArchitecture .armThumb) 0).mode = some .thumb ∧
      (t.check Snapshot.stub (.ofArchitecture .armThumb) 0).target = some 0x8000 := by
    decide +kernel
  exact ⟨hreach, (check_stands hreach Snapshot.nearCalls .armThumb t 0).1 .thumb 0x8000 hvalid⟩

end FirmScan
