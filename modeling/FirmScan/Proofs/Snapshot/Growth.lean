import FirmScan.Proofs.Snapshot.History

/-!
# Snapshots only grow

No call takes away what a snapshot holds. Additions find new places, since a region that would
overlap an old one is refused, and writes leave the code of a function alone.

**Growth** (`Extends`). A later snapshot has all segments of an earlier one, and all its functions
with the same entries, ends and listings; names and comments may differ. This is what one call
preserves (`Consistent.extends_apply`), so it holds along every run of calls
(`Consistent.extends_applyAll`).

**Look-up.** What was read stays as it was read, and where a function starts, it starts for good.
New regions cannot hide old ones from a look-up, because the later snapshot is consistent too.
-/

namespace FirmScan

namespace FunctionRecord

theorem SameCode.refl (f : FunctionRecord) : SameCode f f := ⟨rfl, rfl, rfl⟩

theorem SameCode.trans {f g k : FunctionRecord} (h : SameCode f g) (h' : SameCode g k) :
    SameCode f k :=
  ⟨h'.1.trans h.1, h'.2.1.trans h.2.1, h'.2.2.trans h.2.2⟩

end FunctionRecord

namespace Snapshot

/-- The snapshot after calls, whether they succeed or fail. -/
def applyAll (s : Snapshot) (calls : List Call) : Snapshot := calls.foldl apply s

/-- All segments are still there, and all functions with their code. -/
structure Extends (s s' : Snapshot) : Prop where
  segments : ∀ g ∈ s.segments, g ∈ s'.segments
  functions : ∀ p ∈ s.functions.entries, ∃ f, (p.1, f) ∈ s'.functions.entries ∧ p.2.SameCode f

namespace Extends

theorem refl (s : Snapshot) : s.Extends s where
  segments _ hg := hg
  functions p hp := ⟨p.2, hp, .refl p.2⟩

theorem trans {s s' s'' : Snapshot} (h : s.Extends s') (h' : s'.Extends s'') : s.Extends s'' where
  segments g hg := h'.segments g (h.segments g hg)
  functions p hp := by
    obtain ⟨f, hf, hsame⟩ := h.functions p hp
    obtain ⟨k, hk, hsame'⟩ := h'.functions (p.1, f) hf
    exact ⟨k, hk, hsame.trans hsame'⟩

end Extends

namespace Consistent

variable {s s' : Snapshot}

/-- **Step.** A call keeps what a snapshot holds. -/
theorem extends_apply (h : s.Consistent) (c : Call) : s.Extends (s.apply c) where
  segments _ hg := mem_segments_apply_iff.2 (Or.inl hg)
  functions p hp := by
    rcases functions_apply s c with
      ⟨heq, -⟩ | ⟨k, change, hchange, heq, -⟩ | ⟨f, hcovers, hapart, heq, -⟩
    · rw [heq]
      exact ⟨p.2, hp, .refl p.2⟩
    · rw [heq]
      refine ⟨if p.1 = k then change p.2 else p.2, AddressMap.mem_modify_iff.2 ⟨p.2, hp, rfl⟩, ?_⟩
      by_cases hk : p.1 = k
      · rw [if_pos hk]
        exact hchange p.2
      · rw [if_neg hk]
        exact .refl p.2
    · rw [heq]
      have hne := h.functions.ne_entry hcovers hapart hp
      exact ⟨p.2, AddressMap.mem_insert_iff.2 (Or.inr ⟨hp, hne⟩), .refl p.2⟩

/-- **Run.** A snapshot stays consistent through calls, and keeps what it holds. -/
theorem extends_applyAll (h : s.Consistent) (calls : List Call) :
    (s.applyAll calls).Consistent ∧ s.Extends (s.applyAll calls) := by
  induction calls generalizing s with
  | nil => exact ⟨h, .refl s⟩
  | cons c calls ih =>
    obtain ⟨hconsistent, hextends⟩ := ih (h.apply c)
    exact ⟨hconsistent, (h.extends_apply c).trans hextends⟩

/-- A word that was read once is read for good. -/
theorem readWord?_of_extends (h : s.Consistent) (h' : s'.Consistent) (hext : s.Extends s')
    {a : Address} {w : Word} (hread : s.readWord? a = some w) : s'.readWord? a = some w := by
  obtain ⟨g, hg, hspells⟩ := h.readWord?_eq_some_iff.1 hread
  exact h'.readWord?_eq_some_iff.2 ⟨g, hext.segments g hg, hspells⟩

/-- Where a function starts, it starts for good. -/
theorem startsFunction_of_extends (h : s.Consistent) (h' : s'.Consistent) (hext : s.Extends s')
    {a : Address} (hstarts : Disassembler.startsFunction s a) :
    Disassembler.startsFunction s' a := by
  obtain ⟨f, hf, hlines⟩ := h.startsFunction_iff.1 hstarts
  obtain ⟨k, hk, hsame⟩ := hext.functions _ hf
  exact h'.startsFunction_iff.2 ⟨k, hk, by rw [hsame.2.2]; exact hlines⟩

end Consistent

end Snapshot

end FirmScan
