/-!
# Folds that can fail, association lists, pieces

Facts on lists that more than one part of the library needs.

**Folds.** A fold in `Except` stops at the first step that fails. If it does not fail, each of its
steps has given a state (`exists_of_bind_eq_ok`, `exists_foldlM_cons`), and what every step keeps
holds of the last one (`foldlM_invariant`).

**Pieces.** `List.splitOn` cuts a list at a divider. A list that holds no divider is one piece, and
pieces that are joined by the divider are cut one by one (`splitOn_intercalate_eq_flatMap`). Lists
that are cut give as many pieces as there are lists only if none of them holds the divider
(`length_flatMap_splitOn`).
-/

namespace FirmScan

/-! ## Folds that can fail -/

section Folds

variable {ε σ α β : Type}

theorem exists_of_bind_eq_ok {x : Except ε α} {f : α → Except ε β} {b : β}
    (h : x >>= f = .ok b) : ∃ a, x = .ok a ∧ f a = .ok b := by
  cases x with
  | error e => cases h
  | ok a => exact ⟨a, rfl, h⟩

theorem exists_foldlM_cons {step : σ → α → Except ε σ} {s : σ} {x : α} {l : List α} :
    (∃ s', (x :: l).foldlM step s = .ok s') ↔
      ∃ t, step s x = .ok t ∧ ∃ s', l.foldlM step t = .ok s' := by
  rw [List.foldlM_cons]
  constructor
  · rintro ⟨s', h⟩
    obtain ⟨t, hx, hl⟩ := exists_of_bind_eq_ok h
    exact ⟨t, hx, s', hl⟩
  · rintro ⟨t, hx, s', hl⟩
    exact ⟨s', by rw [hx]; exact hl⟩

/-- What holds at the start of a fold and is kept by each step holds at the end. -/
theorem foldlM_invariant {step : σ → α → Except ε σ} {P : σ → Prop}
    (hstep : ∀ s x s', P s → step s x = .ok s' → P s') {l : List α} {s s' : σ} (hs : P s)
    (h : l.foldlM step s = .ok s') : P s' := by
  induction l generalizing s with
  | nil =>
    cases h
    exact hs
  | cons x l ih =>
    rw [List.foldlM_cons] at h
    obtain ⟨t, hx, hrest⟩ := exists_of_bind_eq_ok h
    exact ih (hstep s x t hs hx) hrest

end Folds

/-! ## Association lists -/

theorem lookup_cons_ite {κ α : Type} [BEq κ] [LawfulBEq κ] [DecidableEq κ] (k k' : κ) (v : α)
    (l : List (κ × α)) :
    ((k, v) :: l).lookup k' = if k' = k then some v else l.lookup k' := by
  rw [List.lookup_cons]
  by_cases h : k' = k
  · rw [if_pos h, beq_iff_eq.2 h]
  · rw [if_neg h, beq_eq_false_iff_ne.2 h]

/-! ## Pieces -/

section Pieces

variable {α : Type} [BEq α]

theorem length_splitOn_pos (d : α) (l : List α) : 0 < (l.splitOn d).length :=
  List.length_pos_iff.2 (List.splitOn_ne_nil d l)

variable [LawfulBEq α]

theorem splitOn_append_cons (d : α) (l l' : List α) :
    (l ++ d :: l').splitOn d = l.splitOn d ++ l'.splitOn d :=
  List.splitOnP_append_cons l l' (by simp)

theorem splitOn_intercalate_eq_flatMap {d : α} {ls : List (List α)} (h : ls ≠ []) :
    ([d].intercalate ls).splitOn d = ls.flatMap (·.splitOn d) := by
  induction ls with
  | nil => exact absurd rfl h
  | cons l ls ih =>
    cases ls with
    | nil => simp
    | cons l' ls =>
      rw [List.intercalate_cons_cons, List.append_assoc, List.singleton_append,
        splitOn_append_cons, ih (by simp), ← List.flatMap_cons]

/-- Lists without the divider are left whole. -/
theorem flatMap_splitOn_of_not_mem {d : α} {ls : List (List α)} (h : ∀ l ∈ ls, d ∉ l) :
    ls.flatMap (·.splitOn d) = ls := by
  induction ls with
  | nil => rfl
  | cons l ls ih =>
    obtain ⟨hl, hls⟩ := List.forall_mem_cons.1 h
    rw [List.flatMap_cons, List.splitOn_eq_singleton hl, ih hls, List.singleton_append]

theorem length_splitOn_eq_one_iff {d : α} {l : List α} : (l.splitOn d).length = 1 ↔ d ∉ l := by
  refine ⟨fun h hmem => ?_, fun h => ?_⟩
  · obtain ⟨front, back, rfl⟩ := List.append_of_mem hmem
    have hfront := length_splitOn_pos d front
    have hback := length_splitOn_pos d back
    rw [splitOn_append_cons, List.length_append] at h
    omega
  · rw [List.splitOn_eq_singleton h, List.length_singleton]

/-- Each list has one piece at least, and more exactly if it holds the divider. -/
theorem length_flatMap_splitOn (d : α) (ls : List (List α)) :
    ls.length ≤ (ls.flatMap (·.splitOn d)).length ∧
      ((ls.flatMap (·.splitOn d)).length = ls.length ↔ ∀ l ∈ ls, d ∉ l) := by
  induction ls with
  | nil => simp
  | cons l ls ih =>
    have hpos := length_splitOn_pos d l
    have hone := length_splitOn_eq_one_iff (d := d) (l := l)
    rw [List.flatMap_cons, List.length_append, List.length_cons, List.forall_mem_cons, ← hone,
      ← ih.2]
    omega

end Pieces

end FirmScan
