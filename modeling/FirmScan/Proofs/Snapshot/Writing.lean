import FirmScan.Proofs.Snapshot.Lookup

/-!
# A write changes what it names

A function is named by its entry, and asked for by any of its addresses; a line is both named and
asked for by its own address. This file says what is seen of a write at every address, for calls
that are accepted and for calls that are refused.

**Theorem (`writes_change_what_they_name`).** A function that is renamed or commented shows the
change at all its addresses, and no other address shows any. A comment on a line is seen at that
line only. No call changes a word or a listing, each is entered into the journal once, and a call
that is refused does nothing else.

Every call is a change behind a guard (`answers_guarded`). Renaming and commenting a function are
one kind of change: both touch the metadata of the record at an entry and leave its code alone.
Since the function keeps its place, a look-up finds the same record as before, with the change if it
is the one (`Consistent.functionContaining?_modify`).
-/

namespace FirmScan.Snapshot

/-! ## What a call may do -/

/-- A write call that is accepted exactly if `allowed` holds. It then has the effect, and else none;
in either case it is entered into the journal, and memory and listings stay. -/
structure Answers (s : Snapshot) (e : Edit) (allowed : Prop) (effect : Snapshot → Prop)
    (answer : Bool × Snapshot) : Prop where
  accepted : answer.1 ↔ allowed
  effective : answer.1 → effect answer.2
  refused : answer.1 = false → answer.2 = { s with journal := s.journal ++ [e] }
  journal : answer.2.journal = s.journal ++ [e]
  words : ∀ a, answer.2.readWord? a = s.readWord? a
  listings : ∀ a, answer.2.listing a = s.listing a

/-- The function that starts at `x` shows its changed metadata at all its addresses. At all other
addresses the functions are as before, and so are the comments on lines everywhere. -/
structure ChangesInfo (s : Snapshot) (x : Address) (change : FunctionInfo → FunctionInfo)
    (s' : Snapshot) : Prop where
  inside : ∀ f ∈ s.functions.values, f.info.entry = x → ∀ y, f.contains y →
    s.functionAt? y = some f.info ∧ s'.functionAt? y = some (change f.info)
  outside : ∀ y, (∀ f ∈ s.functions.values, f.info.entry = x → ¬ f.contains y) →
    s'.functionAt? y = s.functionAt? y
  lines : ∀ y, s'.lineComment? y = s.lineComment? y

/-- The line at `x` has the comment, and all else is as before. -/
structure CommentsLine (s : Snapshot) (x : Address) (text : String) (s' : Snapshot) : Prop where
  here : s'.lineComment? x = some text
  elsewhere : ∀ y, y ≠ x → s'.lineComment? y = s.lineComment? y
  functions : ∀ y, s'.functionAt? y = s.functionAt? y

/-- **Every write call** is a change behind a guard, entered into the journal on either side of
it. -/
theorem answers_guarded {s s' : Snapshot} {e : Edit} {effect : Snapshot → Prop}
    {guard allowed : Prop} [Decidable guard] (hguard : guard ↔ allowed) (heffect : effect s')
    (hjournal : s'.journal = s.journal ++ [e]) (hwords : ∀ a, s'.readWord? a = s.readWord? a)
    (hlistings : ∀ a, s'.listing a = s.listing a) :
    s.Answers e allowed effect (if guard then (true, s') else (false, s.record e)) := by
  by_cases hg : guard
  · rw [if_pos hg]
    refine ⟨iff_of_true rfl (hguard.1 hg), fun _ => heffect, ?_, hjournal, hwords, hlistings⟩
    intro hfalse
    cases hfalse
  · rw [if_neg hg]
    refine ⟨iff_of_false Bool.false_ne_true (mt hguard.2 hg), ?_, fun _ => rfl, rfl, fun _ => rfl,
      fun _ => rfl⟩
    intro htrue
    cases htrue

namespace Consistent

variable {s s' : Snapshot}

/-! ## Changes to a function -/

/-- **A look-up after a change** finds the function that it found before. -/
theorem functionContaining?_modify (h : s.Consistent) {x : Address}
    {change : FunctionRecord → FunctionRecord} (hchange : ∀ f, FunctionRecord.SameCode f (change f))
    (hs' : s'.functions = s.functions.modify x change) (y : Address) :
    s'.functionContaining? y =
      (s.functionContaining? y).map fun f => if f.info.entry = x then change f else f := by
  unfold functionContaining?
  rw [hs', AddressMap.floor?_modify]
  cases hfloor : s.functions.floor? y with
  | none => rfl
  | some p =>
    have hkeyed : p.2.info.entry = p.1 :=
      h.functions.keyed p (AddressMap.floor?_eq_some_iff.1 hfloor).1
    have hcontains : (change p.2).contains y = p.2.contains y := (hchange p.2).contains y
    by_cases hx : p.1 = x <;> by_cases hin : p.2.contains y <;>
      simp [Option.filter_some, hkeyed, hx, hcontains, hin]

theorem functionContaining?_of_contains (h : s.Consistent) {f : FunctionRecord}
    (hf : f ∈ s.functions.values) {y : Address} (hy : f.contains y) :
    s.functionContaining? y = some f :=
  h.functionContaining?_eq_some_iff.2 ⟨h.mem_values_iff.1 hf, hy⟩

theorem changesInfo_modify (h : s.Consistent) {x : Address}
    {change : FunctionRecord → FunctionRecord} {changeInfo : FunctionInfo → FunctionInfo}
    (hchange : ∀ f, FunctionRecord.SameCode f (change f))
    (hinfo : ∀ f, (change f).info = changeInfo f.info)
    (hs' : s'.functions = s.functions.modify x change) (hlines : s'.lineComments = s.lineComments) :
    s.ChangesInfo x changeInfo s' where
  inside f hf hx y hy := by
    have hfound := h.functionContaining?_of_contains hf hy
    simp only [functionAt?, h.functionContaining?_modify hchange hs' y, hfound, Option.map_some, hx,
      if_true, hinfo, and_self]
  outside y hnot := by
    rw [functionAt?, functionAt?, h.functionContaining?_modify hchange hs' y]
    cases hfound : s.functionContaining? y with
    | none => rfl
    | some f =>
      obtain ⟨hf, hy⟩ := h.functionContaining?_eq_some_iff.1 hfound
      have hne : f.info.entry ≠ x := fun hx => hnot f (h.mem_values_iff.2 hf) hx hy
      simp [hne]
  lines y := by rw [lineComment?, lineComment?, hlines]

theorem listing_modify (h : s.Consistent) {x : Address} {change : FunctionRecord → FunctionRecord}
    (hchange : ∀ f, FunctionRecord.SameCode f (change f))
    (hs' : s'.functions = s.functions.modify x change) (y : Address) :
    s'.listing y = s.listing y := by
  rw [listing, listing, h.functionContaining?_modify hchange hs' y]
  cases s.functionContaining? y with
  | none => rfl
  | some f =>
    by_cases hx : f.info.entry = x
    · simp [hx, (hchange f).2.2]
    · simp [hx]

/-- The two calls on a function are answered alike. -/
theorem answers_modify (h : s.Consistent) (e : Edit) (x : Address)
    {change : FunctionRecord → FunctionRecord} {changeInfo : FunctionInfo → FunctionInfo}
    (hchange : ∀ f, FunctionRecord.SameCode f (change f))
    (hinfo : ∀ f, (change f).info = changeInfo f.info) {guard allowed : Prop} [Decidable guard]
    (hguard : guard ↔ allowed) :
    s.Answers e allowed (s.ChangesInfo x changeInfo)
      (if guard then (true, { s.record e with functions := s.functions.modify x change })
        else (false, s.record e)) :=
  answers_guarded hguard (h.changesInfo_modify hchange hinfo rfl rfl) rfl (fun _ => rfl)
    (h.listing_modify hchange rfl)

/-- A function is stored under its entry. -/
theorem isSome_get?_iff_exists (h : s.Consistent) (x : Address) :
    (s.functions.get? x).isSome ↔ ∃ f ∈ s.functions.values, f.info.entry = x := by
  rw [Option.isSome_iff_exists]
  refine exists_congr fun f => ?_
  rw [AddressMap.get?_eq_some_iff, h.mem_values_iff]
  constructor
  · intro hf
    have hentry : f.info.entry = x := h.functions.keyed _ hf
    exact ⟨by rw [hentry]; exact hf, hentry⟩
  · intro hf
    rw [← hf.2]
    exact hf.1

/-! ## Comments on lines -/

theorem isSome_functionContaining?_iff (h : s.Consistent) (x : Address) :
    (s.functionContaining? x).isSome ↔ ∃ f ∈ s.functions.values, f.contains x := by
  rw [Option.isSome_iff_exists]
  refine exists_congr fun f => ?_
  rw [h.functionContaining?_eq_some_iff, h.mem_values_iff]

end Consistent

theorem commentsLine_insert (s : Snapshot) (x : Address) (text : String) :
    s.CommentsLine x text
      { s.record (.lineComment x text) with lineComments := s.lineComments.insert x text } where
  here := (AddressMap.get?_insert s.lineComments x x text).trans (if_pos rfl)
  elsewhere y hne := (AddressMap.get?_insert s.lineComments x y text).trans (if_neg hne)
  functions _ := rfl

/-- **A write changes what it names, and nothing else.** A function is renamed at its entry and by a
name that is not empty, and commented at its entry; all its addresses then show the new name or
comment and the old rest, and no other address shows a change. A line is commented where some
function contains it, and only that line. Accepted or refused, a call leaves every word and every
listing as they were and is entered into the journal once; refused, it does nothing but that. -/
theorem writes_change_what_they_name {s : Snapshot} (h : s.Reachable) (x : Address)
    (text : String) :
    s.Answers (.rename x text) ((∃ f ∈ s.functions.values, f.info.entry = x) ∧ text ≠ "")
      (s.ChangesInfo x fun info => { info with name := text }) (s.rename x text) ∧
    s.Answers (.functionComment x text) (∃ f ∈ s.functions.values, f.info.entry = x)
      (s.ChangesInfo x fun info => { info with comment := some text }) (s.commentFunction x text) ∧
    s.Answers (.lineComment x text) (∃ f ∈ s.functions.values, f.contains x) (s.CommentsLine x text)
      (s.commentLine x text) := by
  have hstarts := h.consistent.isSome_get?_iff_exists x
  have hinside := h.consistent.isSome_functionContaining?_iff x
  refine ⟨?_, ?_, ?_⟩
  · exact h.consistent.answers_modify (.rename x text) x (FunctionRecord.sameCode_withName text)
      (fun _ => rfl) (and_congr_left' hstarts)
  · exact h.consistent.answers_modify (.functionComment x text) x
      (FunctionRecord.sameCode_withComment text) (fun _ => rfl) hstarts
  · exact answers_guarded hinside (commentsLine_insert s x text) rfl (fun _ => rfl) (fun _ => rfl)

/-- The first of two functions that touch is renamed, which its last byte shows and the other
function does not. To rename it in its middle is refused. -/
theorem writes_at_seams :
    seams.Reachable ∧ (seams.rename 0x8000 "start").1 ∧
      (seams.rename 0x8000 "start").2.functionAt? 0x800F = some ⟨"start", 0x8000, none⟩ ∧
      (seams.rename 0x8000 "start").2.functionAt? 0x8010 = seams.functionAt? 0x8010 ∧
      (seams.rename 0x800F "start").2 = { seams with journal := [.rename 0x800F "start"] } ∧
      (seams.commentLine 0x800F "last").2.lineComment? 0x800F = some "last" := by
  have hreach : seams.Reachable := reachable_run _
  obtain ⟨hrename, -, -⟩ := writes_change_what_they_name hreach 0x8000 "start"
  obtain ⟨hmiddle, -, -⟩ := writes_change_what_they_name hreach 0x800F "start"
  obtain ⟨-, -, hline⟩ := writes_change_what_they_name hreach 0x800F "last"
  have hlow : (⟨⟨"low", 0x8000, none⟩, 0x8010, ["00008000: NOP"]⟩ : FunctionRecord) ∈
      seams.functions.values := by
    decide
  have hdone : (seams.rename 0x8000 "start").1 := hrename.accepted.2 ⟨⟨_, hlow, rfl⟩, by decide⟩
  have hline' : (seams.commentLine 0x800F "last").1 := hline.accepted.2 ⟨_, hlow, by decide⟩
  refine ⟨hreach, hdone, ((hrename.effective hdone).inside _ hlow rfl 0x800F (by decide)).2,
    (hrename.effective hdone).outside 0x8010 (by decide), hmiddle.refused rfl,
    (hline.effective hline').here⟩

end FirmScan.Snapshot
