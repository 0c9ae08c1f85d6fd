import FirmScan.Proofs.JumpTable.Check
import FirmScan.Proofs.Snapshot.History

/-!
# Where a slot leads

**The machines** (`LeadsTo`, `probe?_ofArchitecture_iff`). A pointer leads to one entry at most, and
the probe finds it exactly when a function starts there.

**Snapshots** (`check_valid_iff_history`). On a snapshot that was built from nothing, both
conditions are read off the history: which bytes were mapped, and which functions were added. That a
function starts where the slot leads means that one was added with exactly this entry, because a
consistent snapshot has no two functions that contain the same address.
-/

namespace FirmScan

universe u

/-! ## Where pointers lead -/

/-- How the code of an architecture is pointed to: ARM code by its own address, a multiple of four;
Thumb code by the odd address behind its own; x86 code by its own address. A pointer of an unknown
architecture leads nowhere. -/
inductive Architecture.LeadsTo (w : Word) : Architecture → Mode → Address → Prop
  | arm : 4 ∣ w.toNat → LeadsTo w .armThumb .arm w.toUInt64
  | thumb {a : Address} : w.toNat % 2 = 1 → a.toNat = w.toNat - 1 → LeadsTo w .armThumb .thumb a
  | x86 : LeadsTo w .x86 .x86 w.toUInt64

/-- A pointer leads to one place at most: a multiple of four is not odd. -/
theorem Architecture.LeadsTo.unique {w : Word} {arch : Architecture} {m m' : Mode}
    {a a' : Address} (h : arch.LeadsTo w m a) (h' : arch.LeadsTo w m' a') : m = m' ∧ a = a' := by
  cases h with
  | arm hdvd =>
    cases h' with
    | arm _ => exact ⟨rfl, rfl⟩
    | thumb hodd _ => omega
  | thumb hodd ha =>
    cases h' with
    | arm hdvd => omega
    | thumb _ ha' => exact ⟨rfl, UInt64.toNat_inj.1 (ha.trans ha'.symm)⟩
  | x86 =>
    cases h'
    exact ⟨rfl, rfl⟩

namespace Machine

theorem mod_four_eq_zero_iff (w : Word) : w.toUInt64 % 4 = 0 ↔ 4 ∣ w.toNat := by
  rw [← UInt64.toNat_inj, UInt64.toNat_mod, UInt32.toNat_toUInt64]
  show w.toNat % 4 = 0 ↔ _
  omega

theorem and_one_eq_one_iff (w : Word) : w.toUInt64 &&& 1 = 1 ↔ w.toNat % 2 = 1 := by
  rw [← UInt64.toNat_inj, UInt64.toNat_and, UInt32.toNat_toUInt64]
  show w.toNat &&& 1 = 1 ↔ _
  rw [Nat.and_one_is_mod]

theorem toNat_pred {w : Word} (h : w.toNat % 2 = 1) : (w.toUInt64 - 1).toNat = w.toNat - 1 := by
  have hle : (1 : UInt64) ≤ w.toUInt64 := by
    rw [UInt64.le_iff_toNat_le, UInt32.toNat_toUInt64]
    show 1 ≤ w.toNat
    omega
  rw [UInt64.toNat_sub_of_le _ _ hle, UInt32.toNat_toUInt64]
  rfl

theorem mem_entries_ofArchitecture_iff {arch : Architecture} {w : Word} {e : Entry} :
    e ∈ (ofArchitecture arch).entries w.toUInt64 ↔ arch.LeadsTo w e.mode e.address := by
  cases arch with
  | armThumb =>
    simp only [ofArchitecture, arm, entries, mod_four_eq_zero_iff, and_one_eq_one_iff,
      List.mem_append, List.mem_ite_nil_right, List.mem_singleton]
    constructor
    · intro h
      rcases h with ⟨hdvd, rfl⟩ | ⟨hodd, rfl⟩
      · exact .arm hdvd
      · exact .thumb hodd (toNat_pred hodd)
    · obtain ⟨mode, address⟩ := e
      intro h
      cases h with
      | arm hdvd => exact Or.inl ⟨hdvd, rfl⟩
      | thumb hodd ha =>
        rw [UInt64.toNat_inj.1 ((toNat_pred hodd).trans ha.symm)]
        exact Or.inr ⟨hodd, rfl⟩
  | x86 =>
    simp only [ofArchitecture, entries, List.mem_singleton]
    constructor
    · intro h
      rw [h]
      exact .x86
    · obtain ⟨mode, address⟩ := e
      intro h
      cases h
      rfl
  | unknown =>
    simp only [ofArchitecture, entries, List.not_mem_nil, false_iff]
    intro h
    cases h

/-- **The probe** finds where the pointer leads, if a function starts there. -/
theorem probe?_ofArchitecture_iff {σ : Type u} [Disassembler σ] {s : σ} {arch : Architecture}
    {w : Word} {mode : Mode} {target : Address} :
    (ofArchitecture arch).probe? s w.toUInt64 = some ⟨mode, target⟩ ↔
      arch.LeadsTo w mode target ∧ Disassembler.startsFunction s target := by
  rw [probe?]
  constructor
  · intro h
    have hstarts := List.find?_some h
    exact ⟨mem_entries_ofArchitecture_iff.1 (List.mem_of_find?_eq_some h), hstarts⟩
  · intro h
    obtain ⟨hleads, hstarts⟩ := h
    have hmem := mem_entries_ofArchitecture_iff (e := ⟨mode, target⟩).2 hleads
    cases hfind : ((ofArchitecture arch).entries w.toUInt64).find?
        fun e => Disassembler.startsFunction s e.address with
    | none => exact absurd hstarts (List.find?_eq_none.1 hfind _ hmem)
    | some e =>
      have he := mem_entries_ofArchitecture_iff.1 (List.mem_of_find?_eq_some hfind)
      obtain ⟨hmode, haddress⟩ := he.unique hleads
      cases e
      cases hmode
      cases haddress
      rfl

end Machine

/-! ## Slots of a snapshot -/

open Snapshot (Call Happened run consistent_run mem_segments_run_iff exists_function_run_iff)

/-- **Where a slot of a snapshot leads.** The slot is valid, with a mode and a target, exactly when
four bytes of a mapped segment at the slot's address spell a word that is no instruction, lies in
the code and leads to the target in this mode, and a function with this very entry and some listing
was added. -/
theorem JumpTable.check_valid_iff_history (calls : List Call) (arch : Architecture) (t : JumpTable)
    (slot : UInt32) (mode : Mode) (target : Address) :
    ((t.check (run calls) (.ofArchitecture arch) slot).isValid ∧
        (t.check (run calls) (.ofArchitecture arch) slot).mode = some mode ∧
        (t.check (run calls) (.ofArchitecture arch) slot).target = some target) ↔
      ∃ w : Word,
        (∃ g, Happened (fun s c => c.Maps s g) calls ∧
          g.Spells ((t.base.toNat + 4 * slot.toNat) % 2 ^ 64) w) ∧
        (Machine.ofArchitecture arch).isInstruction w = false ∧
        t.codeStart.toNat ≤ w.toNat ∧ w.toNat < t.codeStop.toNat ∧
        arch.LeadsTo w mode target ∧
        ∃ lines, lines ≠ [] ∧ Happened (fun s c => c.Adds s target lines) calls := by
  have hconsistent := consistent_run calls
  have hread (w : Word) :
      Disassembler.readWord? (run calls) (t.slotAddress slot) = some w ↔
        ∃ g, Happened (fun s c => c.Maps s g) calls ∧
          g.Spells ((t.base.toNat + 4 * slot.toNat) % 2 ^ 64) w := by
    rw [← toNat_slotAddress]
    exact hconsistent.readWord?_eq_some_iff.trans
      (exists_congr fun g => and_congr_left fun _ => mem_segments_run_iff)
  have hstarts : Disassembler.startsFunction (run calls) target ↔
      ∃ lines, lines ≠ [] ∧ Happened (fun s c => c.Adds s target lines) calls := by
    rw [hconsistent.startsFunction_iff]
    constructor
    · intro ⟨f, hf, hlines⟩
      exact ⟨f.lines, hlines, exists_function_run_iff.1 ⟨f, hf, rfl⟩⟩
    · intro ⟨lines, hlines, hadded⟩
      obtain ⟨f, hf, rfl⟩ := exists_function_run_iff.2 hadded
      exact ⟨f, hf, hlines⟩
  rw [check_valid_iff]
  simp only [hread, inCode_iff, Machine.probe?_ofArchitecture_iff, hstarts, and_assoc]

end FirmScan
