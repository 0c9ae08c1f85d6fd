import FirmScan.Proofs.Lists
import FirmScan.Proofs.Snapshot.Growth
import FirmScan.Snapshot.Manifest

/-!
# Reachable snapshots

A snapshot is reachable if it is empty, if it was loaded from a manifest, or if it is what a call
left of a reachable snapshot, whether the call succeeded or not.

**Theorem (`wellFormed_of_reachable`).** Every reachable snapshot is well-formed: its regions end
where their bytes do and share no address with one of their kind, its functions are stored under
their entries, and each commented line lies in some function. A function that is added takes no
other's place and ends where its size says, and a call that fails changes nothing.

Loading is a run of additions (`exists_run_of_ofManifest`), so a reachable snapshot is the outcome
of a run from the empty one, and consistent. What remains is the comments: a line is commented only
inside a function (`lineComments_apply`), and no call takes a function away or moves it
(`Consistent.exists_contains_apply`).
-/

namespace FirmScan

/-! ## Regions -/

theorem FunctionRecord.SameCode.contains {f g : FunctionRecord} (h : f.SameCode g) (a : Address) :
    g.contains a = f.contains a := by
  rw [FunctionRecord.contains, h.1, h.2.1, FunctionRecord.contains]

/-- In a layout of functions, none reaches into one that starts above it. -/
theorem FunctionRecord.Stored.not_contains_both {functions : AddressMap FunctionRecord}
    (h : Stored functions) {p q : Address × FunctionRecord} (hp : p ∈ functions.entries)
    (hq : q ∈ functions.entries) (hlt : p.1 < q.1) {a : Address} (hpa : p.2.contains a)
    (hqa : q.2.contains a) : False := by
  have hstop := h.apart p hp q hq hlt
  rw [FunctionRecord.contains_iff] at hpa hqa
  rw [h.keyed q hq] at hqa
  omega

/-- One of the bytes of the segment has the address. -/
def Segment.Holds (g : Segment) (a : Address) : Prop :=
  g.base.toNat ≤ a.toNat ∧ a.toNat < g.base.toNat + g.bytes.length

theorem Segment.not_holds_both {g k : Segment} (hg : g.Exact) (hk : k.Exact) (h : ¬ k.overlaps g)
    (a : Address) : ¬ (g.Holds a ∧ k.Holds a) := by
  rintro ⟨hga, hka⟩
  rw [Holds, ← hg] at hga
  rw [Holds, ← hk] at hka
  rw [overlaps_iff] at h
  omega

namespace Snapshot

/-! ## Reachability -/

inductive Reachable : Snapshot → Prop
  | empty : Reachable .empty
  | loaded {m : Manifest} {s : Snapshot} (h : ofManifest m = .ok s) : Reachable s
  | call {s : Snapshot} (c : Call) (h : Reachable s) : Reachable (s.apply c)

theorem snd_of_accepted {answer : Except Error Unit × Snapshot} {s : Snapshot}
    (h : accepted answer = .ok s) : answer.2 = s := by
  rcases answer with ⟨_ | _, t⟩
  · cases h
  · exact Except.ok.inj h

theorem exists_run_of_loadSegment {s s' : Snapshot} {g : SegmentEntry} (hs : ∃ calls, run calls = s)
    (h : s.loadSegment g = .ok s') : ∃ calls, run calls = s' := by
  obtain ⟨calls, rfl⟩ := hs
  obtain ⟨bytes, -, hmap⟩ := exists_of_bind_eq_ok h
  exact ⟨calls ++ [.mapBytes g.base bytes],
    by rw [run_append_singleton, apply, perform, snd_of_accepted hmap]⟩

theorem exists_run_of_loadFunction {s s' : Snapshot} {f : FunctionEntry}
    (hs : ∃ calls, run calls = s) (h : s.loadFunction f = .ok s') : ∃ calls, run calls = s' := by
  obtain ⟨calls, rfl⟩ := hs
  refine ⟨calls ++ [.addFunction f.info f.extent f.lines], ?_⟩
  rw [run_append_singleton, apply, perform, snd_of_accepted h]

/-- Loading is a run. -/
theorem exists_run_of_ofManifest {m : Manifest} {s : Snapshot} (h : ofManifest m = .ok s) :
    ∃ calls, run calls = s := by
  obtain ⟨t, hsegments, hfunctions⟩ := exists_of_bind_eq_ok h
  have hrun : ∃ calls, run calls = t :=
    foldlM_invariant (fun _ _ _ => exists_run_of_loadSegment) ⟨[], rfl⟩ hsegments
  exact foldlM_invariant (fun _ _ _ => exists_run_of_loadFunction) hrun hfunctions

theorem Reachable.exists_run {s : Snapshot} (h : s.Reachable) : ∃ calls, run calls = s := by
  induction h with
  | empty => exact ⟨[], rfl⟩
  | loaded h => exact exists_run_of_ofManifest h
  | call c _ ih =>
    obtain ⟨calls, rfl⟩ := ih
    exact ⟨calls ++ [c], run_append_singleton calls c⟩

/-- What calls build is reachable. -/
theorem reachable_run (calls : List Call) : (run calls).Reachable :=
  run_induction (P := fun _ s => s.Reachable) .empty (fun _ c h => .call c h) calls

theorem Reachable.consistent {s : Snapshot} (h : s.Reachable) : s.Consistent := by
  obtain ⟨calls, rfl⟩ := h.exists_run
  exact consistent_run calls

/-! ## Commented lines -/

/-- Each commented line lies in some function. -/
def LinesInside (s : Snapshot) : Prop :=
  ∀ p ∈ s.lineComments.entries, ∃ q ∈ s.functions.entries, q.2.contains p.1

/-- **The commented lines after a call**: as before, or with one more that some function
contains. -/
theorem lineComments_apply (s : Snapshot) (c : Call) :
    (s.apply c).lineComments = s.lineComments ∨
      ∃ a text f, s.functionContaining? a = some f ∧
        (s.apply c).lineComments = s.lineComments.insert a text := by
  cases c with
  | mapBytes base bytes =>
    obtain ⟨segments, heq⟩ := exists_segments_placeBytes s base bytes
    exact Or.inl (by rw [apply, perform, heq])
  | mapWords base words =>
    obtain ⟨segments, heq⟩ := exists_segments_placeBytes s base (words.flatMap Word.bytes)
    exact Or.inl (by rw [apply, perform, placeWords, heq])
  | addFunction info size lines =>
    obtain ⟨functions, heq⟩ := exists_functions_placeFunction s info size lines
    exact Or.inl (by rw [apply, perform, heq])
  | rename a name =>
    simp only [apply, perform, rename]
    split <;> exact Or.inl rfl
  | commentFunction a text =>
    simp only [apply, perform, commentFunction]
    split <;> exact Or.inl rfl
  | commentLine a text =>
    simp only [apply, perform, commentLine]
    split
    · rename_i hsome
      obtain ⟨f, hf⟩ := Option.isSome_iff_exists.1 hsome
      exact Or.inr ⟨a, text, f, hf, rfl⟩
    · exact Or.inl rfl

namespace Consistent

variable {s : Snapshot}

/-- An address that some function contains stays in a function. -/
theorem exists_contains_apply (h : s.Consistent) (c : Call) {a : Address}
    (ha : ∃ q ∈ s.functions.entries, q.2.contains a) :
    ∃ q ∈ (s.apply c).functions.entries, q.2.contains a := by
  obtain ⟨q, hq, hin⟩ := ha
  obtain ⟨f, hf, hsame⟩ := (h.extends_apply c).functions q hq
  exact ⟨(q.1, f), hf, by rw [hsame.contains]; exact hin⟩

theorem linesInside_apply (h : s.Consistent) (hlines : s.LinesInside) (c : Call) :
    (s.apply c).LinesInside := by
  intro p hp
  apply h.exists_contains_apply c
  rcases lineComments_apply s c with heq | ⟨a, text, f, hf, heq⟩
  · rw [heq] at hp
    exact hlines p hp
  · rw [heq] at hp
    rcases AddressMap.mem_insert_iff.1 hp with rfl | ⟨hp, -⟩
    · obtain ⟨hmem, hin⟩ := h.functionContaining?_eq_some_iff.1 hf
      exact ⟨_, hmem, hin⟩
    · exact hlines p hp

end Consistent

theorem Reachable.linesInside {s : Snapshot} (h : s.Reachable) : s.LinesInside := by
  obtain ⟨calls, rfl⟩ := h.exists_run
  refine run_induction (P := fun _ s => s.LinesInside) ?_ (fun calls c ih => ?_) calls
  · intro p hp
    cases hp
  · exact (consistent_run calls).linesInside_apply ih c

/-! ## The invariant -/

/-- What is true of every reachable snapshot, in terms of addresses. -/
structure WellFormed (s : Snapshot) : Prop where
  /-- The end that is stored with a segment is the address behind its last byte. -/
  segments_stop : ∀ g ∈ s.segments, g.stop.toNat = g.base.toNat + g.bytes.length
  /-- This address does not wrap. -/
  segments_fit : ∀ g ∈ s.segments, g.base.toNat + g.bytes.length < 2 ^ 64
  segments_apart : s.segments.Pairwise fun g k => ∀ a, ¬ (g.Holds a ∧ k.Holds a)
  functions_keyed : ∀ p ∈ s.functions.entries, p.2.info.entry = p.1
  /-- A function contains its entry at least, and its end does not wrap. -/
  functions_cover : ∀ p ∈ s.functions.entries, p.2.info.entry.toNat < p.2.stop.toNat
  functions_apart : ∀ p ∈ s.functions.entries, ∀ q ∈ s.functions.entries, p.1 ≠ q.1 →
    ∀ a, ¬ (p.2.contains a ∧ q.2.contains a)
  lines_inside : ∀ p ∈ s.lineComments.entries, ∃ q ∈ s.functions.entries, q.2.contains p.1

theorem Consistent.wellFormed {s : Snapshot} (h : s.Consistent) (hlines : s.LinesInside) :
    s.WellFormed where
  segments_stop := h.segments.exact
  segments_fit g hg := h.segments.exact g hg ▸ g.stop.toNat_lt
  segments_apart := by
    refine h.segments.apart.imp_of_mem fun hg hk hapart => ?_
    exact Segment.not_holds_both (h.segments.exact _ hg) (h.segments.exact _ hk) hapart
  functions_keyed := h.functions.keyed
  functions_cover := h.functions.covers
  functions_apart p hp q hq hne a := by
    rintro ⟨hpa, hqa⟩
    rcases UInt64.lt_or_lt_of_ne hne with hlt | hlt
    · exact h.functions.not_contains_both hp hq hlt hpa hqa
    · exact h.functions.not_contains_both hq hp hlt hqa hpa
  lines_inside := hlines

/-- **A call that fails changes nothing.** -/
theorem apply_of_answer_eq_error {s : Snapshot} {c : Call} {e : Error} (h : c.answer s = .error e) :
    s.apply c = s := by
  rw [Call.answer] at h
  cases c with
  | mapBytes base bytes =>
    rcases placeBytes_cases s base bytes with ⟨e, he⟩ | ⟨-, -, hok⟩
    · rw [apply, perform, he]
    · rw [perform, hok] at h
      cases h
  | mapWords base words =>
    rcases placeBytes_cases s base (words.flatMap Word.bytes) with ⟨e, he⟩ | ⟨-, -, hok⟩
    · rw [apply, perform, placeWords, he]
    · rw [perform, placeWords, hok] at h
      cases h
  | addFunction info size lines =>
    rcases placeFunction_cases s info size lines with ⟨e, he⟩ | ⟨f, -, -, -, -, hok⟩
    · rw [apply, perform, he]
    · rw [perform, hok] at h
      cases h
  | rename | commentFunction | commentLine => cases h

/-- A function that is added finds its entry free and is stored there, with the end that its size
gives; all others stay. -/
theorem Consistent.functions_of_addFunction {s s' : Snapshot} (h : s.Consistent)
    {info : FunctionInfo} {size : UInt64} {lines : List String}
    (hadd : s.addFunction info size lines = .ok s') :
    s.functions.get? info.entry = none ∧ (∀ p ∈ s.functions.entries, p ∈ s'.functions.entries) ∧
      ∃ f, s'.functions.get? info.entry = some f ∧ f.info = info ∧ f.lines = lines ∧
        f.stop.toNat = info.entry.toNat + max size.toNat 1 := by
  have hafter := snd_of_accepted hadd
  rcases placeFunction_cases s info size lines with
    ⟨e, he⟩ | ⟨f, rfl, rfl, hstop, hapart, hok⟩
  · rw [addFunction, he] at hadd
    cases hadd
  · rw [hok] at hafter
    subst hafter
    have hne {p : Address × FunctionRecord} (hp : p ∈ s.functions.entries) : p.1 ≠ f.info.entry :=
      h.functions.ne_entry (by omega) hapart hp
    refine ⟨?_, fun p hp => AddressMap.mem_insert_iff.2 (Or.inr ⟨hp, hne hp⟩), f, ?_, rfl, rfl,
      hstop⟩
    · cases hget : s.functions.get? f.info.entry with
      | none => rfl
      | some g => exact absurd rfl (hne (AddressMap.get?_eq_some_iff.1 hget))
    · exact AddressMap.get?_eq_some_iff.2 (AddressMap.mem_insert_iff.2 (Or.inl rfl))

/-- **Every reachable snapshot is well-formed.** Additions to it never take the place of a function
and store the end that the size gives, and a call on it that fails changes nothing. -/
theorem wellFormed_of_reachable {s : Snapshot} (h : s.Reachable) :
    s.WellFormed ∧
    (∀ info size lines s', s.addFunction info size lines = .ok s' →
      s.functions.get? info.entry = none ∧ (∀ p ∈ s.functions.entries, p ∈ s'.functions.entries) ∧
        ∃ f, s'.functions.get? info.entry = some f ∧ f.info = info ∧ f.lines = lines ∧
          f.stop.toNat = info.entry.toNat + max size.toNat 1) ∧
    ∀ (c : Call) (e : Error), c.answer s = .error e → s.apply c = s :=
  ⟨h.consistent.wellFormed h.linesInside,
    fun _ _ _ _ hadd => h.consistent.functions_of_addFunction hadd,
    fun _ _ herror => apply_of_answer_eq_error herror⟩

/-- One segment and one function. -/
def handlerManifest : Manifest where
  segments := [⟨0x1000, "1e ff 2f e1"⟩]
  functions := [⟨"handler", 0x8000, some 16, none, ["00008000: BX LR"]⟩]

/-- What is loaded from the manifest, with a comment on a line of the function. -/
def commentedHandler : Snapshot where
  segments := [⟨0x1000, 0x1004, [0x1E, 0xFF, 0x2F, 0xE1]⟩]
  functions :=
    AddressMap.empty.insert 0x8000 ⟨⟨"handler", 0x8000, none⟩, 0x8010, ["00008000: BX LR"]⟩
  lineComments := AddressMap.empty.insert 0x8004 "return"
  journal := [.lineComment 0x8004 "return"]

/-- Another segment may not start on the last byte of the first. -/
theorem wellFormed_commentedHandler :
    commentedHandler.Reachable ∧ commentedHandler.WellFormed ∧
      (Call.mapBytes 0x1003 [0]).answer commentedHandler = .error (.overlap .segment 0x1003) ∧
      commentedHandler.apply (.mapBytes 0x1003 [0]) = commentedHandler := by
  have hload : ofManifest handlerManifest =
      .ok { commentedHandler with lineComments := .empty, journal := [] } := rfl
  have hreach : commentedHandler.Reachable := .call (.commentLine 0x8004 "return") (.loaded hload)
  have hoverlap : (Call.mapBytes 0x1003 [0]).answer commentedHandler =
      .error (.overlap .segment 0x1003) := rfl
  obtain ⟨hwell, -, hunchanged⟩ := wellFormed_of_reachable hreach
  exact ⟨hreach, hwell, hoverlap, hunchanged _ _ hoverlap⟩

end Snapshot

end FirmScan
