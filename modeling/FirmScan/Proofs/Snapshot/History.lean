import FirmScan.Proofs.Snapshot.Consistent
import Mathlib.Data.List.Induction

/-!
# The history of a snapshot

A snapshot that was built from the empty one is the outcome of a list of calls: additions, which may
fail, and writes. This file reads the contents of a snapshot off that list.

* `consistent_run`: every outcome is consistent.
* `mem_segments_run_iff`: its segments are those that some call mapped successfully.
* `exists_function_run_iff`: its functions are those that some call added successfully. Their
  entries and listings are the ones they were added with, whatever was written since.

All three rest on what one call can do (`segments_apply`, `functions_apply`) and on `run_induction`.
-/

namespace FirmScan.Snapshot

/-! ## Calls and runs -/

/-- A call that adds to a snapshot or writes to it. -/
inductive Call where
  | mapBytes (base : Address) (bytes : List UInt8)
  | mapWords (base : Address) (words : List Word)
  | addFunction (info : FunctionInfo) (size : UInt64) (lines : List String)
  | rename (a : Address) (name : String)
  | commentFunction (a : Address) (text : String)
  | commentLine (a : Address) (text : String)
  deriving DecidableEq, Repr

/-- What a call answers, and the snapshot after it. A write never fails; it may be refused, and is
entered into the journal all the same. -/
def perform (s : Snapshot) : Call → Except Error Unit × Snapshot
  | .mapBytes base bytes => s.placeBytes base bytes
  | .mapWords base words => s.placeWords base words
  | .addFunction info size lines => s.placeFunction info size lines
  | .rename a name => (.ok (), (s.rename a name).2)
  | .commentFunction a text => (.ok (), (s.commentFunction a text).2)
  | .commentLine a text => (.ok (), (s.commentLine a text).2)

def Call.answer (s : Snapshot) (c : Call) : Except Error Unit := (s.perform c).1

/-- The snapshot after a call, whether it succeeds or fails. -/
def apply (s : Snapshot) (c : Call) : Snapshot := (s.perform c).2

/-- The snapshot that calls build from the empty one. -/
def run (calls : List Call) : Snapshot := calls.foldl apply empty

theorem run_append_singleton (calls : List Call) (c : Call) :
    run (calls ++ [c]) = (run calls).apply c := by
  simp [run]

/-- What holds of the empty snapshot and is kept by every call holds of every outcome, together with
the calls that led to it. -/
theorem run_induction {P : List Call → Snapshot → Prop} (nil : P [] empty)
    (step : ∀ calls c, P calls (run calls) → P (calls ++ [c]) ((run calls).apply c)) :
    ∀ calls, P calls (run calls) := by
  intro calls
  induction calls using List.reverseRecOn with
  | nil => exact nil
  | append_singleton earlier c ih =>
    rw [run_append_singleton]
    exact step earlier c ih

/-- Some call of the list did `P` to the snapshot that it met. -/
def Happened (P : Snapshot → Call → Prop) (calls : List Call) : Prop :=
  ∃ before c after, calls = before ++ c :: after ∧ P (run before) c

theorem not_happened_nil {P : Snapshot → Call → Prop} : ¬ Happened P [] := by
  rintro ⟨before, c, after, h, -⟩
  simp at h

theorem happened_append_singleton {P : Snapshot → Call → Prop} {calls : List Call} {c : Call} :
    Happened P (calls ++ [c]) ↔ Happened P calls ∨ P (run calls) c := by
  constructor
  · rintro ⟨before, d, after, h, hd⟩
    rcases List.eq_nil_or_concat after with rfl | ⟨later, e, rfl⟩
    · obtain ⟨rfl, hcd⟩ := List.append_inj' h rfl
      cases hcd
      exact Or.inr hd
    · have h' : calls ++ [c] = (before ++ d :: later) ++ [e] := by simpa using h
      exact Or.inl ⟨before, d, later, (List.append_inj' h' rfl).1, hd⟩
  · rintro (⟨before, d, after, rfl, hd⟩ | hc)
    · exact ⟨before, d, after ++ [c], by simp, hd⟩
    · exact ⟨calls, c, [], rfl, hc⟩

/-! ## What one call can do -/

/-- The segment that a call is to map. -/
def Call.segment? : Call → Option Segment
  | .mapBytes base bytes => some (.ofBytes base bytes)
  | .mapWords base words => some (.ofBytes base (words.flatMap Word.bytes))
  | _ => none

/-- The call maps the segment, and succeeds. -/
def Call.Maps (s : Snapshot) (c : Call) (g : Segment) : Prop :=
  c.segment? = some g ∧ (s.mapBytes g.base g.bytes).isOk

/-- The call adds a function with the given entry and listing, and succeeds. -/
def Call.Adds (s : Snapshot) (c : Call) (entry : Address) (lines : List String) : Prop :=
  ∃ info size, c = .addFunction info size lines ∧ info.entry = entry ∧
    (s.addFunction info size lines).isOk

/-- **An addition** succeeds exactly when the region fits and is not blocked. Otherwise it leaves
the snapshot as it was. -/
theorem place_cases (s : Snapshot) (kind : Region) (base : Address) (length : Nat)
    (blocked : Address → Bool) (grown : Address → Snapshot) :
    (∃ e, s.place kind base length blocked grown = (.error e, s) ∧
      ¬ (base.toNat + length < 2 ^ 64 ∧ blocked (base + UInt64.ofNat length) = false)) ∨
    base.toNat + length < 2 ^ 64 ∧ blocked (base + UInt64.ofNat length) = false ∧
      s.place kind base length blocked grown =
        (.ok (), grown (base + UInt64.ofNat length)) := by
  unfold place Address.plus?
  by_cases hfit : base.toNat + length < UInt64.size
  · rw [if_pos hfit]
    cases hblocked : blocked (base + UInt64.ofNat length) with
    | true => exact Or.inl ⟨_, if_pos hblocked, fun h => by cases h.2⟩
    | false => exact Or.inr ⟨hfit, rfl, if_neg (by rw [hblocked]; exact Bool.false_ne_true)⟩
  · rw [if_neg hfit]
    exact Or.inl ⟨_, rfl, fun h => hfit h.1⟩

theorem accepted_place_eq_ok_iff {s s' : Snapshot} {kind : Region} {base : Address} {length : Nat}
    {blocked : Address → Bool} {grown : Address → Snapshot} :
    accepted (s.place kind base length blocked grown) = .ok s' ↔
      base.toNat + length < 2 ^ 64 ∧ blocked (base + UInt64.ofNat length) = false ∧
        s' = grown (base + UInt64.ofNat length) := by
  rcases place_cases s kind base length blocked grown with ⟨e, he, hnot⟩ | ⟨hfit, hfree, hok⟩
  · rw [he]
    exact iff_of_false (fun h => by cases h) fun h => hnot ⟨h.1, h.2.1⟩
  · rw [hok, accepted, Except.ok.injEq, and_iff_right hfit, and_iff_right hfree]
    exact eq_comm

theorem mapBytes_eq_ok_iff {s s' : Snapshot} {base : Address} {bytes : List UInt8} :
    s.mapBytes base bytes = .ok s' ↔
      base.toNat + bytes.length < 2 ^ 64 ∧
        (∀ k ∈ s.segments, ¬ (Segment.ofBytes base bytes).overlaps k) ∧
        s' = { s with segments := s.segments ++ [.ofBytes base bytes] } := by
  rw [← List.any_eq_false]
  exact accepted_place_eq_ok_iff

theorem addFunction_eq_ok_iff {s s' : Snapshot} {info : FunctionInfo} {size : UInt64}
    {lines : List String} :
    let f : FunctionRecord := ⟨info, info.entry + UInt64.ofNat (max size.toNat 1), lines⟩
    s.addFunction info size lines = .ok s' ↔
      info.entry.toNat + max size.toNat 1 < 2 ^ 64 ∧ (∀ k ∈ s.functions.values, ¬ f.overlaps k) ∧
        s' = { s with functions := s.functions.insert info.entry f } := by
  intro f
  rw [← List.any_eq_false]
  exact accepted_place_eq_ok_iff

/-- Mapping a segment fails and changes nothing, or adds a segment that fits. -/
theorem placeBytes_cases (s : Snapshot) (base : Address) (bytes : List UInt8) :
    (∃ e, s.placeBytes base bytes = (.error e, s)) ∨
      (Segment.ofBytes base bytes).Exact ∧
        (∀ k ∈ s.segments, ¬ (Segment.ofBytes base bytes).overlaps k) ∧
        s.placeBytes base bytes =
          (.ok (), { s with segments := s.segments ++ [.ofBytes base bytes] }) := by
  rw [← List.any_eq_false]
  refine (place_cases ..).imp (fun ⟨e, he, _⟩ => ⟨e, he⟩) fun ⟨hfit, hfree, hok⟩ => ?_
  exact ⟨Segment.exact_ofBytes hfit, hfree, hok⟩

/-- Adding a function fails and changes nothing, or stores a function that fits under its entry. -/
theorem placeFunction_cases (s : Snapshot) (info : FunctionInfo) (size : UInt64)
    (lines : List String) :
    (∃ e, s.placeFunction info size lines = (.error e, s)) ∨
      ∃ f : FunctionRecord, f.info = info ∧ f.lines = lines ∧
        f.stop.toNat = f.info.entry.toNat + max size.toNat 1 ∧
        (∀ p ∈ s.functions.entries, ¬ f.overlaps p.2) ∧
        s.placeFunction info size lines =
          (.ok (), { s with functions := s.functions.insert f.info.entry f }) := by
  refine (place_cases ..).imp (fun ⟨e, he, _⟩ => ⟨e, he⟩) fun ⟨hfit, hfree, hok⟩ => ?_
  refine ⟨⟨info, _, lines⟩, rfl, rfl, Address.toNat_add_ofNat hfit, fun p hp => ?_, hok⟩
  exact List.any_eq_false.1 hfree p.2 (List.mem_map.2 ⟨p, hp, rfl⟩)

/-- Mapping a segment changes nothing but the segments. -/
theorem exists_segments_placeBytes (s : Snapshot) (base : Address) (bytes : List UInt8) :
    ∃ segments, (s.placeBytes base bytes).2 = { s with segments := segments } := by
  rcases placeBytes_cases s base bytes with ⟨e, he⟩ | ⟨-, -, hok⟩
  · exact ⟨s.segments, by rw [he]⟩
  · exact ⟨_, by rw [hok]⟩

/-- Adding a function changes nothing but the functions. -/
theorem exists_functions_placeFunction (s : Snapshot) (info : FunctionInfo) (size : UInt64)
    (lines : List String) :
    ∃ functions, (s.placeFunction info size lines).2 = { s with functions := functions } := by
  rcases placeFunction_cases s info size lines with ⟨e, he⟩ | ⟨f, -, -, -, -, hok⟩
  · exact ⟨s.functions, by rw [he]⟩
  · exact ⟨_, by rw [hok]⟩

theorem segments_apply_of_segment? {s : Snapshot} {c : Call} (h : c.segment? = none) :
    (s.apply c).segments = s.segments := by
  cases c with
  | mapBytes base bytes => cases h
  | mapWords base words => cases h
  | addFunction info size lines =>
    obtain ⟨functions, heq⟩ := exists_functions_placeFunction s info size lines
    rw [apply, perform, heq]
  | rename a name =>
    simp only [apply, perform, rename]
    split <;> rfl
  | commentFunction a text =>
    simp only [apply, perform, commentFunction]
    split <;> rfl
  | commentLine a text =>
    simp only [apply, perform, commentLine]
    split <;> rfl

/-- A call that is to map a segment maps its bytes. -/
theorem exists_of_segment? {c : Call} {g : Segment} (h : c.segment? = some g) :
    ∃ base bytes, g = .ofBytes base bytes ∧
      ∀ s : Snapshot, s.apply c = (s.placeBytes base bytes).2 := by
  cases c with
  | mapBytes base bytes =>
    cases h
    exact ⟨base, bytes, rfl, fun _ => rfl⟩
  | mapWords base words =>
    cases h
    exact ⟨base, words.flatMap Word.bytes, rfl, fun _ => rfl⟩
  | addFunction | rename | commentFunction | commentLine => cases h

/-- **The segments after a call**: as before, if the call maps none, else with one more that
fits. -/
theorem segments_apply (s : Snapshot) (c : Call) :
    ((s.apply c).segments = s.segments ∧ ∀ g, ¬ c.Maps s g) ∨
      ∃ g : Segment, g.Exact ∧ (∀ k ∈ s.segments, ¬ g.overlaps k) ∧
        (s.apply c).segments = s.segments ++ [g] ∧ ∀ k, c.Maps s k ↔ k = g := by
  cases hc : c.segment? with
  | none =>
    refine Or.inl ⟨segments_apply_of_segment? hc, fun g hg => ?_⟩
    cases hc.symm.trans hg.1
  | some g =>
    obtain ⟨base, bytes, rfl, happly⟩ := exists_of_segment? hc
    rw [happly]
    have hmap : s.mapBytes base bytes = accepted (s.placeBytes base bytes) := rfl
    rcases placeBytes_cases s base bytes with ⟨e, he⟩ | ⟨hexact, hapart, hok⟩
    · rw [he] at hmap ⊢
      refine Or.inl ⟨rfl, fun k hk => ?_⟩
      cases hc.symm.trans hk.1
      have hisOk : (s.mapBytes base bytes).isOk := hk.2
      rw [hmap] at hisOk
      cases hisOk
    · rw [hok] at hmap ⊢
      refine Or.inr ⟨.ofBytes base bytes, hexact, hapart, rfl, fun k => ⟨fun hk => ?_, ?_⟩⟩
      · cases hc.symm.trans hk.1
        rfl
      · rintro rfl
        exact ⟨hc, congrArg Except.isOk hmap⟩

theorem not_adds {s : Snapshot} {c : Call} (h : ∀ info size lines, c ≠ .addFunction info size lines)
    (entry : Address) (lines : List String) : ¬ c.Adds s entry lines := by
  rintro ⟨info, size, hc, -⟩
  exact h info size lines hc

/-- **The functions after a call**: as before, or one with its name or comment changed, or one more
that fits. -/
theorem functions_apply (s : Snapshot) (c : Call) :
    ((s.apply c).functions = s.functions ∧ ∀ entry lines, ¬ c.Adds s entry lines) ∨
      (∃ a change, (∀ f, FunctionRecord.SameCode f (change f)) ∧
        (s.apply c).functions = s.functions.modify a change ∧
        ∀ entry lines, ¬ c.Adds s entry lines) ∨
      ∃ f : FunctionRecord, f.info.entry.toNat < f.stop.toNat ∧
        (∀ p ∈ s.functions.entries, ¬ f.overlaps p.2) ∧
        (s.apply c).functions = s.functions.insert f.info.entry f ∧
        ∀ entry lines, c.Adds s entry lines ↔ entry = f.info.entry ∧ lines = f.lines := by
  cases c with
  | mapBytes base bytes =>
    obtain ⟨segments, heq⟩ := exists_segments_placeBytes s base bytes
    exact Or.inl ⟨by rw [apply, perform, heq], not_adds (by simp)⟩
  | mapWords base words =>
    obtain ⟨segments, heq⟩ := exists_segments_placeBytes s base (words.flatMap Word.bytes)
    exact Or.inl ⟨by rw [apply, perform, placeWords, heq], not_adds (by simp)⟩
  | addFunction info size lines =>
    have hadd : s.addFunction info size lines = accepted (s.placeFunction info size lines) := rfl
    rw [apply, perform]
    rcases placeFunction_cases s info size lines with
      ⟨e, he⟩ | ⟨f, rfl, rfl, hstop, hapart, hok⟩
    · rw [he] at hadd ⊢
      refine Or.inl ⟨rfl, ?_⟩
      rintro entry lines' ⟨info', size', hc, -, hisOk⟩
      cases hc
      rw [hadd] at hisOk
      cases hisOk
    · rw [hok] at hadd ⊢
      refine Or.inr (Or.inr ⟨f, by omega, hapart, rfl, fun entry lines => ⟨?_, ?_⟩⟩)
      · rintro ⟨info', size', hc, rfl, -⟩
        cases hc
        exact ⟨rfl, rfl⟩
      · rintro ⟨rfl, rfl⟩
        exact ⟨f.info, size, rfl, rfl, congrArg Except.isOk hadd⟩
  | rename a name =>
    simp only [apply, perform, rename]
    split
    · exact Or.inr (Or.inl ⟨a, _, FunctionRecord.sameCode_withName name, rfl, not_adds (by simp)⟩)
    · exact Or.inl ⟨rfl, not_adds (by simp)⟩
  | commentFunction a text =>
    simp only [apply, perform, commentFunction]
    split
    · exact Or.inr (Or.inl
        ⟨a, _, FunctionRecord.sameCode_withComment text, rfl, not_adds (by simp)⟩)
    · exact Or.inl ⟨rfl, not_adds (by simp)⟩
  | commentLine a text =>
    refine Or.inl ⟨?_, not_adds (by simp)⟩
    simp only [apply, perform, commentLine]
    split <;> rfl

/-! ## What a run has done -/

theorem Consistent.apply {s : Snapshot} (h : s.Consistent) (c : Call) : (s.apply c).Consistent where
  segments := by
    rcases segments_apply s c with ⟨heq, -⟩ | ⟨g, hexact, hapart, heq, -⟩
    · rw [heq]
      exact h.segments
    · rw [heq]
      exact h.segments.append hexact hapart
  functions := by
    rcases functions_apply s c with
      ⟨heq, -⟩ | ⟨a, change, hchange, heq, -⟩ | ⟨f, hcovers, hapart, heq, -⟩
    · rw [heq]
      exact h.functions
    · rw [heq]
      exact h.functions.modify a hchange
    · rw [heq]
      exact h.functions.insert hcovers hapart

/-- **Every outcome is consistent.** -/
theorem consistent_run (calls : List Call) : (run calls).Consistent :=
  run_induction (P := fun _ s => s.Consistent) consistent_empty (fun _ c h => h.apply c) calls

theorem mem_segments_apply_iff {s : Snapshot} {c : Call} {g : Segment} :
    g ∈ (s.apply c).segments ↔ g ∈ s.segments ∨ c.Maps s g := by
  rcases segments_apply s c with ⟨heq, hnot⟩ | ⟨k, -, -, heq, hmaps⟩
  · simp [heq, hnot]
  · simp [heq, hmaps]

/-- **Segments are mapped by calls**, and stay. -/
theorem mem_segments_run_iff {calls : List Call} {g : Segment} :
    g ∈ (run calls).segments ↔ Happened (fun s c => c.Maps s g) calls := by
  refine run_induction
    (P := fun calls s => g ∈ s.segments ↔ Happened (fun s c => c.Maps s g) calls) ?_ ?_ calls
  · simp [empty, not_happened_nil]
  · intro calls c ih
    rw [mem_segments_apply_iff, happened_append_singleton, ih]

theorem exists_function_apply_iff {s : Snapshot} (h : s.Consistent) {c : Call} {entry : Address}
    {lines : List String} :
    (∃ f, (entry, f) ∈ (s.apply c).functions.entries ∧ f.lines = lines) ↔
      (∃ f, (entry, f) ∈ s.functions.entries ∧ f.lines = lines) ∨ c.Adds s entry lines := by
  rcases functions_apply s c with
    ⟨heq, hnot⟩ | ⟨a, change, hchange, heq, hnot⟩ | ⟨f, hcovers, hapart, heq, hadds⟩
  · simp [heq, hnot]
  · simp only [heq, hnot, or_false]
    constructor
    · rintro ⟨f, hf, rfl⟩
      obtain ⟨g, hg, hsame⟩ := FunctionRecord.exists_of_mem_modify hchange hf
      exact ⟨g, hg, hsame.2.2.symm⟩
    · rintro ⟨g, hg, rfl⟩
      refine ⟨if entry = a then change g else g, AddressMap.mem_modify_iff.2 ⟨g, hg, rfl⟩, ?_⟩
      split
      · exact (hchange g).2.2
      · rfl
  · simp only [heq, hadds]
    constructor
    · rintro ⟨g, hg, rfl⟩
      rcases AddressMap.mem_insert_iff.1 hg with heq | ⟨hg, -⟩
      · cases heq
        exact Or.inr ⟨rfl, rfl⟩
      · exact Or.inl ⟨g, hg, rfl⟩
    · rintro (⟨g, hg, rfl⟩ | ⟨rfl, rfl⟩)
      · -- The new function took no other's place, since it overlaps none.
        have hne := h.functions.ne_entry hcovers hapart hg
        exact ⟨g, AddressMap.mem_insert_iff.2 (Or.inr ⟨hg, hne⟩), rfl⟩
      · exact ⟨f, AddressMap.mem_insert_iff.2 (Or.inl rfl), rfl⟩

/-- **Functions are added by calls**, and keep their entries and listings. -/
theorem exists_function_run_iff {calls : List Call} {entry : Address} {lines : List String} :
    (∃ f, (entry, f) ∈ (run calls).functions.entries ∧ f.lines = lines) ↔
      Happened (fun s c => c.Adds s entry lines) calls := by
  refine run_induction
    (P := fun calls s => (∃ f, (entry, f) ∈ s.functions.entries ∧ f.lines = lines) ↔
      Happened (fun s c => c.Adds s entry lines) calls) ?_ ?_ calls
  · simp [empty, AddressMap.empty, not_happened_nil]
  · intro calls c ih
    rw [exists_function_apply_iff (consistent_run calls), happened_append_singleton, ih]

end FirmScan.Snapshot
