import FirmScan.Proofs.Snapshot.Lookup
import FirmScan.Proofs.Text.HexBytes

/-!
# Which manifests load

A manifest is loaded one region after another, and each region is compared only with those that are
already there. This file says which manifests load, without any order.

**Theorem (`loads_in_any_order`).** A manifest loads exactly when it is loadable: each segment
spells bytes, each region ends below 2^64, and no two segments and no two functions overlap. A
manifest with the same segments and functions in another order therefore loads too, and the two
snapshots give the same answers.

**Placing.** Both lists are loaded by the same kind of loop (`Places`): an item is accepted if it is
fine by itself and stands apart from everything that is held, and is held from then on. By induction
over the list, all items are accepted exactly when each is fine and any two stand apart
(`Places.accepts_all`), and what is held in the end is what was listed (`Places.holds_all`). The
order does not matter to either, since standing apart is mutual.

**Answers.** What a consistent snapshot answers is fixed by which segments and which functions it
holds (`Consistent.readWord?_congr`, `Consistent.functionContaining?_congr`).
-/

namespace FirmScan

/-! ## Placing one item after another -/

/-- A loop that takes in items one by one. In a state that satisfies the invariant an item is
accepted exactly when it is fine and the thing it stands for is apart from all things that are held,
and this thing is then held too. -/
structure Places {ε σ α β : Type} (step : σ → α → Except ε σ) (Invariant : σ → Prop)
    (Holds : σ → β → Prop) (thing : α → β) (Fine : α → Prop) (Apart : β → β → Prop) : Prop where
  accepts : ∀ {s x}, Invariant s →
    ((∃ s', step s x = .ok s') ↔ Fine x ∧ ∀ y, Holds s y → Apart (thing x) y)
  holds : ∀ {s x s'}, Invariant s → step s x = .ok s' →
    Invariant s' ∧ ∀ y, Holds s' y ↔ Holds s y ∨ y = thing x

namespace Places

variable {ε σ α β : Type} {step : σ → α → Except ε σ} {Invariant : σ → Prop} {Holds : σ → β → Prop}
  {thing : α → β} {Fine : α → Prop} {Apart : β → β → Prop}

/-- All items are accepted exactly when each is fine, none is too near to what was held before, and
any two stand apart. -/
theorem accepts_all (h : Places step Invariant Holds thing Fine Apart) {l : List α} {s : σ}
    (hs : Invariant s) :
    (∃ s', l.foldlM step s = .ok s') ↔
      (∀ x ∈ l, Fine x) ∧ (∀ x ∈ l, ∀ y, Holds s y → Apart (thing x) y) ∧
        l.Pairwise fun x y => Apart (thing y) (thing x) := by
  induction l generalizing s with
  | nil => exact ⟨fun _ => by simp, fun _ => ⟨s, rfl⟩⟩
  | cons x l ih =>
    rw [exists_foldlM_cons]
    simp only [List.forall_mem_cons, List.pairwise_cons]
    constructor
    · intro ⟨t, hx, hrest⟩
      obtain ⟨hfine, hapart⟩ := (h.accepts hs).1 ⟨t, hx⟩
      obtain ⟨ht, hheld⟩ := h.holds hs hx
      obtain ⟨hfines, haparts, hpairs⟩ := (ih ht).1 hrest
      refine ⟨⟨hfine, hfines⟩, ⟨hapart, fun y hy z hz => ?_⟩, fun y hy => ?_, hpairs⟩
      · exact haparts y hy z ((hheld z).2 (Or.inl hz))
      · exact haparts y hy (thing x) ((hheld _).2 (Or.inr rfl))
    · intro ⟨⟨hfine, hfines⟩, ⟨hapart, haparts⟩, hfirst, hpairs⟩
      obtain ⟨t, hx⟩ := (h.accepts hs).2 ⟨hfine, hapart⟩
      obtain ⟨ht, hheld⟩ := h.holds hs hx
      refine ⟨t, hx, (ih ht).2 ⟨hfines, fun y hy z hz => ?_, hpairs⟩⟩
      rcases (hheld z).1 hz with hz | rfl
      · exact haparts y hy z hz
      · exact hfirst y hy

/-- What is held in the end is what was held before and what was listed. -/
theorem holds_all (h : Places step Invariant Holds thing Fine Apart) {l : List α} {s s' : σ}
    (hs : Invariant s) (hload : l.foldlM step s = .ok s') :
    Invariant s' ∧ ∀ y, Holds s' y ↔ Holds s y ∨ ∃ x ∈ l, y = thing x := by
  induction l generalizing s with
  | nil =>
    cases hload
    exact ⟨hs, by simp⟩
  | cons x l ih =>
    rw [List.foldlM_cons] at hload
    obtain ⟨t, hx, hl⟩ := exists_of_bind_eq_ok hload
    obtain ⟨ht, hfirst⟩ := h.holds hs hx
    obtain ⟨hs', hrest⟩ := ih ht hl
    refine ⟨hs', fun y => ?_⟩
    rw [hrest, hfirst, or_assoc]
    simp

end Places

/-! ## Entries of a manifest -/

namespace SegmentEntry

/-- The text without blanks. -/
def digits (g : SegmentEntry) : List Char := Text.removeBlanks g.bytes.toList

/-- The text is an even number of hex digits. -/
def Spelled (g : SegmentEntry) : Prop :=
  g.digits.length % 2 = 0 ∧ ∀ c ∈ g.digits, Numeral.isHexDigit c

/-- The address behind the last byte; two digits spell a byte. -/
def stop (g : SegmentEntry) : Nat := g.base.toNat + g.digits.length / 2

/-- The segment of the entry, empty if it does not spell one. -/
def segment (g : SegmentEntry) : Segment := .ofBytes g.base (g.decode.toOption.getD [])

theorem decode_eq_ok_iff {g : SegmentEntry} {bytes : List UInt8} :
    g.decode = .ok bytes ↔ HexBytes.decode g.bytes.toList = .ok bytes := by
  rw [decode]
  cases HexBytes.decode g.bytes.toList <;> simp [Except.mapError]

theorem exists_decode_iff {g : SegmentEntry} : (∃ bytes, g.decode = .ok bytes) ↔ g.Spelled := by
  simp only [decode_eq_ok_iff]
  exact HexBytes.exists_decode_iff g.bytes.toList

theorem Spelled.stop_eq {g : SegmentEntry} (h : g.Spelled) :
    g.base.toNat + g.segment.bytes.length = g.stop := by
  obtain ⟨bytes, hbytes⟩ := exists_decode_iff.2 h
  have hlength := HexBytes.length_of_decode (decode_eq_ok_iff.1 hbytes)
  simp [segment, Segment.ofBytes, stop, hbytes, Except.toOption, hlength, digits]

/-- The entry describes a segment: its text spells bytes, and these end below 2^64. -/
def Fine (g : SegmentEntry) : Prop := g.Spelled ∧ g.stop < 2 ^ 64

theorem Fine.exact_segment {g : SegmentEntry} (h : g.Fine) : g.segment.Exact :=
  Segment.exact_ofBytes (h.1.stop_eq.trans_lt h.2)

theorem Fine.stop_segment {g : SegmentEntry} (h : g.Fine) : g.segment.stop.toNat = g.stop :=
  h.exact_segment.trans h.1.stop_eq

end SegmentEntry

namespace FunctionEntry

/-- The number of bytes: what is given, or else four for each line and for one line at least, as far
as 64 bits go. A function covers one byte at least. -/
def span (f : FunctionEntry) : Nat :=
  max ((f.size.map UInt64.toNat).getD (min (4 * max f.lines.length 1) (2 ^ 64 - 1))) 1

/-- The address behind the last byte. -/
def stop (f : FunctionEntry) : Nat := f.entry.toNat + f.span

/-- The function of the entry. -/
def record (f : FunctionEntry) : FunctionRecord :=
  ⟨f.info, f.info.entry + UInt64.ofNat (max f.extent.toNat 1), f.lines⟩

theorem stop_eq (f : FunctionEntry) : f.info.entry.toNat + max f.extent.toNat 1 = f.stop := by
  have hextent : f.extent.toNat =
      (f.size.map UInt64.toNat).getD (min (4 * max f.lines.length 1) (2 ^ 64 - 1)) := by
    rw [extent]
    cases f.size with
    | some size => rfl
    | none =>
      have hsize : UInt64.size = 2 ^ 64 := rfl
      rw [Option.getD_none, UInt64.toNat_ofNat', Option.map_none, Option.getD_none, hsize]
      omega
  rw [hextent, stop, span, info]

theorem stop_record {f : FunctionEntry} (hfit : f.stop < 2 ^ 64) : f.record.stop.toNat = f.stop :=
  (Address.toNat_add_ofNat (f.stop_eq.trans_lt hfit)).trans f.stop_eq

end FunctionEntry

theorem SegmentEntry.Fine.overlaps_iff {g k : SegmentEntry} (hg : g.Fine) (hk : k.Fine) :
    k.segment.overlaps g.segment ↔ g.base.toNat < k.stop ∧ k.base.toNat < g.stop := by
  rw [Segment.overlaps_iff, hg.stop_segment, hk.stop_segment, and_comm]
  exact Iff.rfl

theorem FunctionEntry.overlaps_record_iff {f k : FunctionEntry} (hf : f.stop < 2 ^ 64)
    (hk : k.stop < 2 ^ 64) :
    k.record.overlaps f.record ↔ f.entry.toNat < k.stop ∧ k.entry.toNat < f.stop := by
  rw [FunctionRecord.overlaps_iff, stop_record hf, stop_record hk, and_comm]
  exact Iff.rfl

/-- The conditions on a manifest, each on the lists as a whole. -/
structure Manifest.Loadable (m : Manifest) : Prop where
  spelled : ∀ g ∈ m.segments, g.Spelled
  segments_fit : ∀ g ∈ m.segments, g.stop < 2 ^ 64
  functions_fit : ∀ f ∈ m.functions, f.stop < 2 ^ 64
  segments_apart : m.segments.Pairwise fun g k => ¬ (g.base.toNat < k.stop ∧ k.base.toNat < g.stop)
  functions_apart : m.functions.Pairwise fun f k =>
    ¬ (f.entry.toNat < k.stop ∧ k.entry.toNat < f.stop)

/-! ## One region -/

/-- A function that overlaps no other joins the others and takes no one's place. -/
theorem FunctionRecord.Stored.mem_values_insert_iff {functions : AddressMap FunctionRecord}
    (h : Stored functions) {f : FunctionRecord} (hcovers : f.info.entry.toNat < f.stop.toNat)
    (hapart : ∀ p ∈ functions.entries, ¬ f.overlaps p.2) {k : FunctionRecord} :
    k ∈ (functions.insert f.info.entry f).values ↔ k ∈ functions.values ∨ k = f := by
  simp only [AddressMap.values, List.mem_map, AddressMap.mem_insert_iff]
  constructor
  · intro ⟨p, hp, hk⟩
    rcases hp with rfl | ⟨hp, -⟩
    · exact Or.inr hk.symm
    · exact Or.inl ⟨p, hp, hk⟩
  · intro hk
    rcases hk with ⟨p, hp, hk⟩ | rfl
    · exact ⟨p, Or.inr ⟨hp, h.ne_entry hcovers hapart hp⟩, hk⟩
    · exact ⟨_, Or.inl rfl, rfl⟩

namespace Snapshot

theorem loadSegment_eq_ok_iff {s s' : Snapshot} {g : SegmentEntry} :
    s.loadSegment g = .ok s' ↔
      g.Fine ∧ (∀ k ∈ s.segments, ¬ g.segment.overlaps k) ∧
        s' = { s with segments := s.segments ++ [g.segment] } := by
  by_cases hspelled : g.Spelled
  · obtain ⟨bytes, hbytes⟩ := SegmentEntry.exists_decode_iff.2 hspelled
    have hload : s.loadSegment g = s.mapBytes g.base g.segment.bytes := by
      simp only [loadSegment, hbytes, SegmentEntry.segment, Except.toOption]
      rfl
    rw [hload, mapBytes_eq_ok_iff, hspelled.stop_eq, SegmentEntry.Fine, and_iff_right hspelled]
    exact Iff.rfl
  · refine ⟨fun h => ?_, fun h => absurd h.1.1 hspelled⟩
    obtain ⟨bytes, hbytes, -⟩ := exists_of_bind_eq_ok h
    exact absurd (SegmentEntry.exists_decode_iff.1 ⟨bytes, hbytes⟩) hspelled

theorem loadFunction_eq_ok_iff {s s' : Snapshot} {f : FunctionEntry} :
    s.loadFunction f = .ok s' ↔
      f.stop < 2 ^ 64 ∧ (∀ k ∈ s.functions.values, ¬ f.record.overlaps k) ∧
        s' = { s with functions := s.functions.insert f.entry f.record } := by
  rw [← f.stop_eq]
  exact addFunction_eq_ok_iff

/-! ## The two loops -/

theorem places_segments :
    Places loadSegment (fun s => s.Consistent ∧ s.functions = .empty) (fun s g => g ∈ s.segments)
      SegmentEntry.segment SegmentEntry.Fine (fun g k => ¬ g.overlaps k) where
  accepts {s g} _ := by
    simp only [loadSegment_eq_ok_iff]
    constructor
    · intro ⟨_, hfine, hapart, _⟩
      exact ⟨hfine, hapart⟩
    · intro ⟨hfine, hapart⟩
      exact ⟨_, hfine, hapart, rfl⟩
  holds {s g s'} hs h := by
    obtain ⟨hfine, hapart, rfl⟩ := loadSegment_eq_ok_iff.1 h
    exact ⟨⟨⟨hs.1.segments.append hfine.exact_segment hapart, hs.1.functions⟩, hs.2⟩, by simp⟩

theorem places_functions (segments : List Segment) :
    Places loadFunction (fun s => s.Consistent ∧ s.segments = segments)
      (fun s f => f ∈ s.functions.values)
      FunctionEntry.record (fun f => f.stop < 2 ^ 64) (fun f k => ¬ f.overlaps k) where
  accepts {s f} _ := by
    simp only [loadFunction_eq_ok_iff]
    constructor
    · intro ⟨_, hfit, hapart, _⟩
      exact ⟨hfit, hapart⟩
    · intro ⟨hfit, hapart⟩
      exact ⟨_, hfit, hapart, rfl⟩
  holds {s f s'} hs h := by
    obtain ⟨hfit, hapart, rfl⟩ := loadFunction_eq_ok_iff.1 h
    have hcovers : f.record.info.entry.toNat < f.record.stop.toNat := by
      rw [FunctionEntry.stop_record hfit, ← f.stop_eq]
      exact Nat.lt_add_of_pos_right (Nat.le_max_right _ 1)
    have hentries : ∀ p ∈ s.functions.entries, ¬ f.record.overlaps p.2 := fun p hp =>
      hapart p.2 (List.mem_map.2 ⟨p, hp, rfl⟩)
    exact ⟨⟨⟨hs.1.segments, hs.1.functions.insert hcovers hentries⟩, hs.2⟩,
      fun k => hs.1.functions.mem_values_insert_iff hcovers hentries⟩

/-! ## The whole manifest -/

theorem exists_load_segments_iff (l : List SegmentEntry) :
    (∃ s, l.foldlM loadSegment empty = .ok s) ↔
      (∀ g ∈ l, g.Fine) ∧
        l.Pairwise fun g k => ¬ (g.base.toNat < k.stop ∧ k.base.toNat < g.stop) := by
  rw [places_segments.accepts_all ⟨consistent_empty, rfl⟩]
  refine and_congr_right fun hfine => ?_
  have hnone : ∀ g ∈ l, ∀ k, k ∈ empty.segments → ¬ g.segment.overlaps k :=
    fun _ _ _ hk => by cases hk
  have hpairs : l.Pairwise (fun g k => ¬ k.segment.overlaps g.segment) ↔
      l.Pairwise fun g k => ¬ (g.base.toNat < k.stop ∧ k.base.toNat < g.stop) :=
    List.Pairwise.iff_of_mem fun hg hk => not_congr ((hfine _ hg).overlaps_iff (hfine _ hk))
  rw [← hpairs]
  exact ⟨fun h => h.2, fun h => ⟨hnone, h⟩⟩

theorem exists_load_functions_iff {s : Snapshot} (hs : s.Consistent) (hempty : s.functions = .empty)
    (l : List FunctionEntry) :
    (∃ s', l.foldlM loadFunction s = .ok s') ↔
      (∀ f ∈ l, f.stop < 2 ^ 64) ∧
        l.Pairwise fun f k => ¬ (f.entry.toNat < k.stop ∧ k.entry.toNat < f.stop) := by
  rw [(places_functions s.segments).accepts_all ⟨hs, rfl⟩, hempty]
  refine and_congr_right fun hfit => ?_
  have hnone : ∀ f ∈ l, ∀ k, k ∈ (AddressMap.empty : AddressMap FunctionRecord).values →
      ¬ f.record.overlaps k :=
    fun _ _ _ hk => by cases hk
  have hpairs : l.Pairwise (fun f k => ¬ k.record.overlaps f.record) ↔
      l.Pairwise fun f k => ¬ (f.entry.toNat < k.stop ∧ k.entry.toNat < f.stop) :=
    List.Pairwise.iff_of_mem fun hf hk =>
      not_congr (FunctionEntry.overlaps_record_iff (hfit _ hf) (hfit _ hk))
  rw [← hpairs]
  exact ⟨fun h => h.2, fun h => ⟨hnone, h⟩⟩

/-- What a loaded snapshot holds. -/
theorem holds_of_ofManifest {m : Manifest} {s : Snapshot} (h : ofManifest m = .ok s) :
    s.Consistent ∧ (∀ g, g ∈ s.segments ↔ ∃ x ∈ m.segments, g = x.segment) ∧
      ∀ f, f ∈ s.functions.values ↔ ∃ x ∈ m.functions, f = x.record := by
  obtain ⟨t, hsegments, hfunctions⟩ := exists_of_bind_eq_ok h
  obtain ⟨⟨ht, hempty⟩, hheld⟩ := places_segments.holds_all ⟨consistent_empty, rfl⟩ hsegments
  obtain ⟨⟨hs, hsame⟩, hheld'⟩ := (places_functions t.segments).holds_all ⟨ht, rfl⟩ hfunctions
  refine ⟨hs, fun g => ?_, fun f => ?_⟩
  · rw [hsame, hheld]
    simp [empty]
  · rw [hheld', hempty]
    simp [AddressMap.empty, AddressMap.values]

/-- **A manifest loads exactly when it is loadable.** -/
theorem exists_ofManifest_iff (m : Manifest) : (∃ s, ofManifest m = .ok s) ↔ m.Loadable := by
  constructor
  · intro ⟨s, h⟩
    obtain ⟨t, hsegments, hfunctions⟩ := exists_of_bind_eq_ok h
    obtain ⟨ht, hempty⟩ := (places_segments.holds_all ⟨consistent_empty, rfl⟩ hsegments).1
    obtain ⟨hfine, hapart⟩ := (exists_load_segments_iff m.segments).1 ⟨t, hsegments⟩
    obtain ⟨hfit, hapart'⟩ := (exists_load_functions_iff ht hempty m.functions).1 ⟨s, hfunctions⟩
    exact ⟨fun g hg => (hfine g hg).1, fun g hg => (hfine g hg).2, hfit, hapart, hapart'⟩
  · intro h
    obtain ⟨t, hsegments⟩ := (exists_load_segments_iff m.segments).2
      ⟨fun g hg => ⟨h.spelled g hg, h.segments_fit g hg⟩, h.segments_apart⟩
    obtain ⟨ht, hempty⟩ := (places_segments.holds_all ⟨consistent_empty, rfl⟩ hsegments).1
    obtain ⟨s, hfunctions⟩ :=
      (exists_load_functions_iff ht hempty m.functions).2 ⟨h.functions_fit, h.functions_apart⟩
    refine ⟨s, ?_⟩
    rw [ofManifest, hsegments]
    exact hfunctions

end Snapshot

/-! ## Another order -/

theorem Manifest.Loadable.perm {m m' : Manifest} (h : m.Loadable)
    (hsegments : m.segments.Perm m'.segments) (hfunctions : m.functions.Perm m'.functions) :
    m'.Loadable where
  spelled g hg := h.spelled g (hsegments.mem_iff.2 hg)
  segments_fit g hg := h.segments_fit g (hsegments.mem_iff.2 hg)
  functions_fit f hf := h.functions_fit f (hfunctions.mem_iff.2 hf)
  segments_apart := hsegments.pairwise h.segments_apart fun hgk hkg => hgk ⟨hkg.2, hkg.1⟩
  functions_apart := hfunctions.pairwise h.functions_apart fun hfk hkf => hfk ⟨hkf.2, hkf.1⟩

namespace Snapshot

namespace Consistent

variable {s s' : Snapshot}

/-- Memory is read alike where the same segments are held, in whatever order. -/
theorem readWord?_congr (h : s.Consistent) (h' : s'.Consistent)
    (hsame : ∀ g, g ∈ s'.segments ↔ g ∈ s.segments) (a : Address) :
    s'.readWord? a = s.readWord? a := by
  apply Option.ext
  intro w
  rw [h'.readWord?_eq_some_iff, h.readWord?_eq_some_iff]
  simp only [hsame]

/-- Functions are found alike where the same functions are held. -/
theorem functionContaining?_congr (h : s.Consistent) (h' : s'.Consistent)
    (hsame : ∀ f, f ∈ s'.functions.values ↔ f ∈ s.functions.values) (a : Address) :
    s'.functionContaining? a = s.functionContaining? a := by
  apply Option.ext
  intro f
  rw [h'.functionContaining?_eq_some_iff, h.functionContaining?_eq_some_iff, ← h'.mem_values_iff,
    ← h.mem_values_iff, hsame]

end Consistent

/-- Manifests that list the same regions lead to the same answers. -/
theorem answers_of_perm {m m' : Manifest} {s s' : Snapshot}
    (hsegments : m'.segments.Perm m.segments) (hfunctions : m'.functions.Perm m.functions)
    (h : ofManifest m = .ok s) (h' : ofManifest m' = .ok s') (a : Address) :
    s'.readWord? a = s.readWord? a ∧ s'.functionAt? a = s.functionAt? a ∧
      s'.listing a = s.listing a := by
  obtain ⟨hs, hheld, hfound⟩ := holds_of_ofManifest h
  obtain ⟨hs', hheld', hfound'⟩ := holds_of_ofManifest h'
  have hsame (g : Segment) : g ∈ s'.segments ↔ g ∈ s.segments := by
    rw [hheld, hheld']
    simp only [hsegments.mem_iff]
  have hsame' (f : FunctionRecord) : f ∈ s'.functions.values ↔ f ∈ s.functions.values := by
    rw [hfound, hfound']
    simp only [hfunctions.mem_iff]
  have hlook := hs.functionContaining?_congr hs' hsame' a
  exact ⟨hs.readWord?_congr hs' hsame a, by rw [functionAt?, functionAt?, hlook],
    by rw [listing, listing, hlook]⟩

/-- **The order of a manifest does not matter.** A manifest loads exactly when its segments spell
bytes, its regions fit the address space, and no two of a kind overlap. With its lists in another
order it loads if and only if it did before, and what is loaded reads the same words, finds the same
functions and shows the same listings. -/
theorem loads_in_any_order (m : Manifest) :
    ((∃ s, ofManifest m = .ok s) ↔ m.Loadable) ∧
    ∀ m' : Manifest, m'.segments.Perm m.segments → m'.functions.Perm m.functions →
      ((∃ s', ofManifest m' = .ok s') ↔ ∃ s, ofManifest m = .ok s) ∧
      ∀ s s', ofManifest m = .ok s → ofManifest m' = .ok s' → ∀ a,
        s'.readWord? a = s.readWord? a ∧ s'.functionAt? a = s.functionAt? a ∧
          s'.listing a = s.listing a := by
  refine ⟨exists_ofManifest_iff m, fun m' hsegments hfunctions => ⟨?_, fun s s' h h' a => ?_⟩⟩
  · rw [exists_ofManifest_iff, exists_ofManifest_iff]
    exact ⟨fun h => h.perm hsegments hfunctions, fun h => h.perm hsegments.symm hfunctions.symm⟩
  · exact answers_of_perm hsegments hfunctions h h' a

/-- Segments that touch, with an empty one between them, and functions that touch. -/
def touching : Manifest where
  segments := [⟨0x1000, "1E FF 2f e1"⟩, ⟨0x1004, " "⟩, ⟨0x1004, "01800000"⟩]
  functions :=
    [⟨"handler", 0x8000, none, none, ["00008000: BX LR"]⟩, ⟨"tail", 0x8004, some 0, none, []⟩]

/-- Read from the end, the manifest still loads, and the answers at the seams are the same. -/
theorem loads_reversed :
    ∃ s', ofManifest ⟨touching.segments.reverse, touching.functions.reverse⟩ = .ok s' ∧
      s'.readWord? 0x1004 = some 0x8001 ∧ s'.functionAt? 0x8004 = some ⟨"tail", 0x8004, none⟩ ∧
      s'.listing 0x8003 = ["00008000: BX LR"] := by
  have hload : ofManifest touching =
      .ok (run [.mapBytes 0x1000 [0x1E, 0xFF, 0x2F, 0xE1], .mapBytes 0x1004 [],
        .mapWords 0x1004 [0x8001], .addFunction ⟨"handler", 0x8000, none⟩ 4 ["00008000: BX LR"],
        .addFunction ⟨"tail", 0x8004, none⟩ 0 []]) := rfl
  obtain ⟨hloads, hanswers⟩ := (loads_in_any_order touching).2
    ⟨touching.segments.reverse, touching.functions.reverse⟩
    (List.reverse_perm _) (List.reverse_perm _)
  obtain ⟨s', h'⟩ := hloads.2 ⟨_, hload⟩
  have hanswer := hanswers _ s' hload h'
  exact ⟨s', h', (hanswer 0x1004).1, (hanswer 0x8004).2.1, (hanswer 0x8003).2.2⟩

end Snapshot

end FirmScan
