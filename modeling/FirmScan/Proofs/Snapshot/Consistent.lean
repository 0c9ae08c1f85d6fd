import FirmScan.Proofs.AddressMap
import FirmScan.Snapshot
import Mathlib.Algebra.Group.Nat.Defs

/-!
# Consistent snapshots

A snapshot is consistent when its regions are where their ends say and keep apart: a segment ends
behind its last byte, no segment shares an address with another, no function with another, and each
function is stored under its entry.

**Ends.** The end of a region is stored with it, as an address (`Segment.Exact`). That it is the sum
of the base and the length, and not what is left of the sum after it wrapped, is a fact about the
additions that put it there (`Address.plus?_eq_some_iff`).

**Look-up.** In a consistent snapshot a look-up does not depend on the order of the search. The word
at an address is the word that some segment spells there, and the function that contains an address
is the only one that does, although the search considers just the function with the greatest entry.

**Growth and writing.** Adding a region asks for the same condition that consistency states, and a
write changes names and comments only, so every call keeps a snapshot consistent.
`Proofs.Snapshot.History` draws the conclusion for whole runs.
-/

namespace FirmScan

/-! ## Words in segments -/

/-- The four bytes of a segment from address `a` on spell the word `w`, lowest first. -/
def Segment.Spells (g : Segment) (a : Nat) (w : Word) : Prop :=
  ∃ (before : List UInt8) (b₀ b₁ b₂ b₃ : UInt8) (after : List UInt8),
    g.bytes = before ++ b₀ :: b₁ :: b₂ :: b₃ :: after ∧ g.base.toNat + before.length = a ∧
      w.toNat = b₀.toNat + 2 ^ 8 * b₁.toNat + 2 ^ 16 * b₂.toNat + 2 ^ 24 * b₃.toNat

theorem Word.toNat_ofBytes (b₀ b₁ b₂ b₃ : UInt8) :
    (Word.ofBytes b₀ b₁ b₂ b₃).toNat =
      b₀.toNat + 2 ^ 8 * b₁.toNat + 2 ^ 16 * b₂.toNat + 2 ^ 24 * b₃.toNat := by
  have h₀ := b₀.toNat_lt
  have h₁ := b₁.toNat_lt
  have h₂ := b₂.toNat_lt
  have h₃ := b₃.toNat_lt
  rw [Word.ofBytes, UInt32.toNat_ofNat', Nat.mod_eq_of_lt] <;> omega

/-! ## Ends of regions -/

theorem Address.toNat_add_ofNat {a : Address} {n : Nat} (hfit : a.toNat + n < 2 ^ 64) :
    (a + UInt64.ofNat n).toNat = a.toNat + n := by
  rw [UInt64.toNat_add, UInt64.toNat_ofNat', Nat.add_mod_mod, Nat.mod_eq_of_lt hfit]

theorem Address.plus?_eq_some_iff {a b : Address} {n : Nat} :
    a.plus? n = some b ↔ b.toNat = a.toNat + n := by
  have hb := b.toNat_lt
  rw [Address.plus?]
  by_cases hfit : a.toNat + n < UInt64.size
  · rw [if_pos hfit, Option.some_inj, ← UInt64.toNat_inj, toNat_add_ofNat hfit]
    exact eq_comm
  · rw [if_neg hfit]
    exact iff_of_false (fun h => by cases h) fun h => hfit (h ▸ hb)

namespace Segment

/-- The segment ends behind its last byte. Both ends are addresses, so the sum does not wrap. -/
def Exact (g : Segment) : Prop := g.stop.toNat = g.base.toNat + g.bytes.length

/-- The segment of some bytes. -/
def ofBytes (base : Address) (bytes : List UInt8) : Segment :=
  ⟨base, base + UInt64.ofNat bytes.length, bytes⟩

theorem exact_ofBytes {base : Address} {bytes : List UInt8}
    (hfit : base.toNat + bytes.length < 2 ^ 64) : (ofBytes base bytes).Exact :=
  Address.toNat_add_ofNat hfit

theorem overlaps_iff {g k : Segment} :
    g.overlaps k ↔ g.base.toNat < k.stop.toNat ∧ k.base.toNat < g.stop.toNat := by
  simp only [overlaps, Bool.and_eq_true, decide_eq_true_eq, UInt64.lt_iff_toNat_lt]

/-- A read tests whether its four bytes lie before the end, and not beyond all addresses. -/
theorem inside_iff {g : Segment} {a : Address} :
    (g.base ≤ a ∧ (a.plus? 4).any (· ≤ g.stop)) ↔
      g.base.toNat ≤ a.toNat ∧ a.toNat + 4 ≤ g.stop.toNat := by
  refine and_congr UInt64.le_iff_toNat_le ?_
  rw [Option.any_eq_true]
  constructor
  · rintro ⟨b, hb, hle⟩
    rw [← Address.plus?_eq_some_iff.1 hb]
    exact UInt64.le_iff_toNat_le.1 (of_decide_eq_true hle)
  · intro hle
    have hb : (UInt64.ofNat (a.toNat + 4)).toNat = a.toNat + 4 :=
      UInt64.toNat_ofNat_of_lt' (Nat.lt_of_le_of_lt hle g.stop.toNat_lt)
    refine ⟨_, Address.plus?_eq_some_iff.2 hb, decide_eq_true (UInt64.le_iff_toNat_le.2 ?_)⟩
    rwa [hb]

/-- A word is read only where the segment says that it holds it. -/
theorem inside_of_word? {g : Segment} {a : Address} {w : Word} (h : g.word? a = some w) :
    g.base.toNat ≤ a.toNat ∧ a.toNat + 4 ≤ g.stop.toNat := by
  rw [word?] at h
  split at h
  · rename_i hin
    exact inside_iff.1 hin
  · cases h

theorem spells_of_word? {g : Segment} {a : Address} {w : Word} (h : g.word? a = some w) :
    g.Spells a.toNat w := by
  have hin := inside_of_word? h
  have hoffset : (a - g.base).toNat = a.toNat - g.base.toNat :=
    UInt64.toNat_sub_of_le _ _ (UInt64.le_iff_toNat_le.2 hin.1)
  rw [word?, if_pos (inside_iff.2 hin), hoffset] at h
  split at h
  · rename_i b₀ b₁ b₂ b₃ after hdrop
    cases h
    refine ⟨g.bytes.take (a.toNat - g.base.toNat), b₀, b₁, b₂, b₃, after, ?_, ?_,
      Word.toNat_ofBytes ..⟩
    · rw [← hdrop, List.take_append_drop]
    · have hlength := congrArg List.length hdrop
      rw [List.length_drop, List.length_cons] at hlength
      rw [List.length_take]
      omega
  · cases h

/-- A word that a segment spells lies inside the segment. -/
theorem Spells.inside {g : Segment} {a : Nat} {w : Word} (h : g.Spells a w) :
    g.base.toNat ≤ a ∧ a + 4 ≤ g.base.toNat + g.bytes.length := by
  obtain ⟨before, b₀, b₁, b₂, b₃, after, hbytes, rfl, -⟩ := h
  rw [hbytes, List.length_append]
  simp only [List.length_cons]
  omega

theorem Exact.word?_eq_some_iff {g : Segment} (hg : g.Exact) {a : Address} {w : Word} :
    g.word? a = some w ↔ g.Spells a.toNat w := by
  refine ⟨spells_of_word?, fun hspells => ?_⟩
  have hin := hspells.inside
  rw [← hg] at hin
  have hoffset : (a - g.base).toNat = a.toNat - g.base.toNat :=
    UInt64.toNat_sub_of_le _ _ (UInt64.le_iff_toNat_le.2 hin.1)
  obtain ⟨before, b₀, b₁, b₂, b₃, after, hbytes, haddr, hw⟩ := hspells
  have hdrop : g.bytes.drop (a - g.base).toNat = b₀ :: b₁ :: b₂ :: b₃ :: after := by
    rw [hbytes, show (a - g.base).toNat = before.length by omega, List.drop_left]
  rw [word?, if_pos (inside_iff.2 hin), hdrop]
  exact congrArg some (UInt32.toNat_inj.1 ((Word.toNat_ofBytes ..).trans hw.symm))

/-- Segments that both hold the word at an address overlap. -/
theorem overlaps_of_word? {g k : Segment} {a : Address} {w w' : Word} (hg : g.word? a = some w)
    (hk : k.word? a = some w') : g.overlaps k := by
  have hin := inside_of_word? hg
  have hin' := inside_of_word? hk
  rw [overlaps_iff]
  omega

end Segment

theorem FunctionRecord.overlaps_iff {f g : FunctionRecord} :
    f.overlaps g ↔
      f.info.entry.toNat < g.stop.toNat ∧ g.info.entry.toNat < f.stop.toNat := by
  simp only [overlaps, Bool.and_eq_true, decide_eq_true_eq, UInt64.lt_iff_toNat_lt]

theorem FunctionRecord.contains_iff {f : FunctionRecord} {a : Address} :
    f.contains a ↔ f.info.entry.toNat ≤ a.toNat ∧ a.toNat < f.stop.toNat := by
  simp only [contains, Bool.and_eq_true, decide_eq_true_eq, UInt64.le_iff_toNat_le,
    UInt64.lt_iff_toNat_lt]

/-! ## The invariant -/

/-- Segments that end behind their last bytes and share no address. -/
structure Segment.LaidOut (segments : List Segment) : Prop where
  exact : ∀ g ∈ segments, g.Exact
  apart : segments.Pairwise fun g h => ¬ h.overlaps g

/-- Functions that are stored under their entries, cover them and share no address. -/
structure FunctionRecord.Stored (functions : AddressMap FunctionRecord) : Prop where
  keyed : ∀ p ∈ functions.entries, p.2.info.entry = p.1
  covers : ∀ p ∈ functions.entries, p.2.info.entry.toNat < p.2.stop.toNat
  apart : ∀ p ∈ functions.entries, ∀ q ∈ functions.entries, p.1 < q.1 → p.2.stop.toNat ≤ q.1.toNat

structure Snapshot.Consistent (s : Snapshot) : Prop where
  segments : Segment.LaidOut s.segments
  functions : FunctionRecord.Stored s.functions

theorem Segment.laidOut_nil : LaidOut [] where
  exact _ h := absurd h List.not_mem_nil
  apart := .nil

theorem FunctionRecord.stored_empty : Stored .empty where
  keyed _ h := absurd h List.not_mem_nil
  covers _ h := absurd h List.not_mem_nil
  apart _ h := absurd h List.not_mem_nil

namespace Snapshot

theorem consistent_empty : empty.Consistent := ⟨Segment.laidOut_nil, FunctionRecord.stored_empty⟩

/-! ## Look-up in a consistent snapshot -/

namespace Consistent

variable {s : Snapshot}

/-- Segments that spell a word at the same address agree on the word. -/
theorem spells_unique (h : s.Consistent) {g g' : Segment} (hg : g ∈ s.segments)
    (hg' : g' ∈ s.segments) {a : Address} {w w' : Word} (hw : g.word? a = some w)
    (hw' : g'.word? a = some w') : w = w' := by
  -- Two segments that both hold the word overlap, which only a segment and itself may do.
  refine List.Pairwise.forall_of_forall_of_flip
    (R := fun g g' : Segment => ∀ w w', g.word? a = some w → g'.word? a = some w' → w = w')
    (fun g _ w w' hw hw' => Option.some_inj.1 (hw.symm.trans hw'))
    (h.segments.apart.imp fun hap w w' hw hw' => absurd (Segment.overlaps_of_word? hw' hw) hap)
    (h.segments.apart.imp fun hap w w' hw hw' => absurd (Segment.overlaps_of_word? hw hw') hap)
    hg hg' w w' hw hw'

theorem readWord?_eq_some_iff (h : s.Consistent) {a : Address} {w : Word} :
    s.readWord? a = some w ↔ ∃ g ∈ s.segments, g.Spells a.toNat w := by
  constructor
  · intro hread
    obtain ⟨g, hg, hw⟩ := List.exists_of_findSome?_eq_some hread
    exact ⟨g, hg, Segment.spells_of_word? hw⟩
  · rintro ⟨g, hg, hspells⟩
    have hw := (h.segments.exact g hg).word?_eq_some_iff.2 hspells
    cases hread : s.readWord? a with
    | none =>
      have := List.findSome?_eq_none_iff.1 hread g hg
      rw [hw] at this
      cases this
    | some w' =>
      obtain ⟨g', hg', hw'⟩ := List.exists_of_findSome?_eq_some hread
      rw [h.spells_unique hg' hg hw' hw]

theorem functionContaining?_eq_some_iff (h : s.Consistent) {a : Address} {f : FunctionRecord} :
    s.functionContaining? a = some f ↔
      (f.info.entry, f) ∈ s.functions.entries ∧ f.contains a := by
  simp only [functionContaining?, Option.filter_eq_some_iff, Option.map_eq_some_iff]
  constructor
  · rintro ⟨⟨p, hfloor, rfl⟩, hin⟩
    have hp := (AddressMap.floor?_eq_some_iff.1 hfloor).1
    rw [h.functions.keyed p hp]
    exact ⟨hp, hin⟩
  · rintro ⟨hf, hin⟩
    refine ⟨⟨(f.info.entry, f), AddressMap.floor?_eq_some_iff.2 ⟨hf, ?_, fun q hq hle => ?_⟩, rfl⟩,
      hin⟩
    all_goals rw [FunctionRecord.contains_iff] at hin
    · exact UInt64.le_iff_toNat_le.2 hin.1
    · -- A function that starts between the entry and the address would cut this one short.
      refine UInt64.not_lt.1 fun hlt => ?_
      have hstop := h.functions.apart _ hf q hq hlt
      have := UInt64.le_iff_toNat_le.1 hle
      simp only at hstop
      omega

/-- A function covers its entry, so it is found there. -/
theorem functionContaining?_of_mem (h : s.Consistent) {a : Address} {f : FunctionRecord}
    (hf : (a, f) ∈ s.functions.entries) : s.functionContaining? a = some f := by
  have hentry : f.info.entry = a := h.functions.keyed _ hf
  have hcovers := h.functions.covers _ hf
  rw [hentry] at hcovers
  have hin : f.contains a :=
    FunctionRecord.contains_iff.2 ⟨Nat.le_of_eq (congrArg _ hentry), hcovers⟩
  exact h.functionContaining?_eq_some_iff.2 ⟨by rw [hentry]; exact hf, hin⟩

/-- **A function starts at an address** exactly when a record with a listing is stored there:
landing inside another function never counts. -/
theorem startsFunction_iff (h : s.Consistent) {a : Address} :
    Disassembler.startsFunction s a ↔
      ∃ f, (a, f) ∈ s.functions.entries ∧ f.lines ≠ [] := by
  have hlisting : Disassembler.listing s a = ((s.functionContaining? a).map (·.lines)).getD [] :=
    rfl
  have hfound : Disassembler.functionAt? s a = (s.functionContaining? a).map (·.info) := rfl
  rw [Disassembler.startsFunction, hlisting, hfound]
  constructor
  · cases hf : s.functionContaining? a with
    | none => simp
    | some f =>
      intro hstarts
      simp only [Option.map_some, Option.getD_some, Option.any_some, Bool.and_eq_true,
        decide_eq_true_eq] at hstarts
      have hmem := (h.functionContaining?_eq_some_iff.1 hf).1
      rw [hstarts.2] at hmem
      exact ⟨f, hmem, by simpa using hstarts.1⟩
  · rintro ⟨f, hf, hlines⟩
    have hentry : f.info.entry = a := h.functions.keyed _ hf
    simp [h.functionContaining?_of_mem hf, hentry, hlines]

end Consistent

end Snapshot

/-! ## Growth keeps a snapshot consistent -/

theorem Segment.LaidOut.append {segments : List Segment} (h : LaidOut segments) {g : Segment}
    (hg : g.Exact) (hapart : ∀ k ∈ segments, ¬ g.overlaps k) : LaidOut (segments ++ [g]) where
  exact k hk := by
    rcases List.mem_append.1 hk with hk | hk
    · exact h.exact k hk
    · rwa [List.mem_singleton.1 hk]
  apart := by
    refine List.pairwise_append.2 ⟨h.apart, List.pairwise_singleton .., fun k hk k' hk' => ?_⟩
    rw [List.mem_singleton.1 hk']
    exact hapart k hk

namespace FunctionRecord

variable {functions : AddressMap FunctionRecord} {f : FunctionRecord}

theorem not_overlaps_iff {f g : FunctionRecord} :
    ¬ f.overlaps g ↔
      g.stop.toNat ≤ f.info.entry.toNat ∨ f.stop.toNat ≤ g.info.entry.toNat := by
  rw [overlaps_iff]
  omega

/-- No function is stored where one that overlaps none could start. -/
theorem Stored.ne_entry (h : Stored functions) (hcovers : f.info.entry.toNat < f.stop.toNat)
    (hapart : ∀ p ∈ functions.entries, ¬ f.overlaps p.2) {p : Address × FunctionRecord}
    (hp : p ∈ functions.entries) : p.1 ≠ f.info.entry := by
  intro heq
  have hpcovers := h.covers p hp
  have hentry : p.2.info.entry = f.info.entry := (h.keyed p hp).trans heq
  have := not_overlaps_iff.1 (hapart p hp)
  rw [hentry] at this hpcovers
  omega

theorem Stored.insert (h : Stored functions) (hcovers : f.info.entry.toNat < f.stop.toNat)
    (hapart : ∀ p ∈ functions.entries, ¬ f.overlaps p.2) :
    Stored (functions.insert f.info.entry f) where
  keyed p hp := by
    rcases AddressMap.mem_insert_iff.1 hp with rfl | ⟨hp, -⟩
    · rfl
    · exact h.keyed p hp
  covers p hp := by
    rcases AddressMap.mem_insert_iff.1 hp with rfl | ⟨hp, -⟩
    · exact hcovers
    · exact h.covers p hp
  apart p hp q hq hlt := by
    have hpq := UInt64.lt_iff_toNat_lt.1 hlt
    rcases AddressMap.mem_insert_iff.1 hp with rfl | ⟨hp, -⟩ <;>
      rcases AddressMap.mem_insert_iff.1 hq with rfl | ⟨hq, -⟩
    · exact absurd hlt (UInt64.lt_irrefl _)
    · -- The new function starts first, so the other cannot end before it.
      have := not_overlaps_iff.1 (hapart q hq)
      have hqcovers := h.covers q hq
      rw [h.keyed q hq] at this hqcovers
      simp only at hpq ⊢
      omega
    · have := not_overlaps_iff.1 (hapart p hp)
      rw [h.keyed p hp] at this
      simp only at hpq ⊢
      omega
    · exact h.apart p hp q hq hlt

/-! ## Writing keeps a snapshot consistent -/

/-- Two records of the same code: only the name and the comment may differ. -/
def SameCode (f g : FunctionRecord) : Prop :=
  g.info.entry = f.info.entry ∧ g.stop = f.stop ∧ g.lines = f.lines

theorem sameCode_withName (name : String) (f : FunctionRecord) : SameCode f (f.withName name) :=
  ⟨rfl, rfl, rfl⟩

theorem sameCode_withComment (text : String) (f : FunctionRecord) :
    SameCode f (f.withComment text) :=
  ⟨rfl, rfl, rfl⟩

/-- What is stored after a change that leaves the code alone was stored before, with the same
code. -/
theorem exists_of_mem_modify {a : Address} {change : FunctionRecord → FunctionRecord}
    (hchange : ∀ f, SameCode f (change f)) {p : Address × FunctionRecord}
    (hp : p ∈ (functions.modify a change).entries) :
    ∃ f, (p.1, f) ∈ functions.entries ∧ SameCode f p.2 := by
  obtain ⟨f, hf, hsnd⟩ := AddressMap.mem_modify_iff.1 hp
  refine ⟨f, hf, ?_⟩
  rw [hsnd]
  split
  · exact hchange f
  · exact ⟨rfl, rfl, rfl⟩

theorem Stored.modify (h : Stored functions) (a : Address)
    {change : FunctionRecord → FunctionRecord} (hchange : ∀ f, SameCode f (change f)) :
    Stored (functions.modify a change) where
  keyed p hp := by
    obtain ⟨f, hf, hsame⟩ := exists_of_mem_modify hchange hp
    exact hsame.1.trans (h.keyed _ hf)
  covers p hp := by
    obtain ⟨f, hf, hsame⟩ := exists_of_mem_modify hchange hp
    rw [hsame.1, hsame.2.1]
    exact h.covers _ hf
  apart p hp q hq hlt := by
    obtain ⟨f, hf, hsame⟩ := exists_of_mem_modify hchange hp
    obtain ⟨g, hg, -⟩ := exists_of_mem_modify hchange hq
    rw [hsame.2.1]
    exact h.apart (p.1, f) hf (q.1, g) hg hlt

end FunctionRecord

end FirmScan
