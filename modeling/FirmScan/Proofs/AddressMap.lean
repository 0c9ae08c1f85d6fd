import FirmScan.AddressMap

/-!
# What is looked up in a map is what was put there

The entries of a map are strictly increasing, so an address has one value at most. Membership in the
entries is therefore the whole meaning of a map, and each operation is described by it.

* `get?_eq_some_iff`: a look-up finds exactly the entries.
* `floor?_eq_some_iff`: the entry at or below an address is the greatest such entry.
* `mem_insert_iff`, `mem_modify_iff`: what the two changes do to the entries.
* `eq_of_get?`: maps are equal if the same is looked up in them.
* `modify_modify`, `modify_comm`: changes at one address compose, changes at two addresses commute.
* `get?_modify`, `get?_insert`, `floor?_modify`: what is looked up after a change.
-/

namespace FirmScan.AddressMap

universe u

variable {α : Type u}

/-! ## One value at each address -/

theorem eq_of_mem {m : AddressMap α} {p q : Address × α} (hp : p ∈ m.entries) (hq : q ∈ m.entries)
    (h : p.1 = q.1) : p = q := by
  have hne {x y : Address × α} (hlt : x.1 < y.1) : x.1 ≠ y.1 := UInt64.ne_of_lt hlt
  exact List.Pairwise.forall_of_forall_of_flip (R := fun x y => x.1 = y.1 → x = y)
    (fun _ _ _ => rfl) (m.sorted.imp fun hlt heq => absurd heq (hne hlt))
    (m.sorted.imp fun hlt heq => absurd heq.symm (hne hlt)) hp hq h

theorem get?_eq_some_iff {m : AddressMap α} {a : Address} {x : α} :
    m.get? a = some x ↔ (a, x) ∈ m.entries := by
  constructor
  · intro h
    obtain ⟨before, after, hsplit, -⟩ := List.lookup_eq_some_iff.1 h
    rw [hsplit]
    exact List.mem_append_right _ List.mem_cons_self
  · intro h
    cases hget : m.get? a with
    | none =>
      have := List.lookup_eq_none_iff.1 hget (a, x) h
      simp at this
    | some y =>
      obtain ⟨before, after, hsplit, -⟩ := List.lookup_eq_some_iff.1 hget
      have hy : (a, y) ∈ m.entries := by
        rw [hsplit]; exact List.mem_append_right _ List.mem_cons_self
      cases eq_of_mem hy h rfl
      rfl

/-! ## The greatest entry not above an address -/

/-- The entries are increasing, so those not above an address come first. -/
theorem takeWhile_le_eq_filter (m : AddressMap α) (a : Address) :
    (m.entries.takeWhile fun p => p.1 ≤ a) = m.entries.filter fun p => p.1 ≤ a := by
  have hsorted := m.sorted
  generalize m.entries = l at hsorted ⊢
  induction l with
  | nil => rfl
  | cons p rest ih =>
    obtain ⟨hp, hrest⟩ := List.pairwise_cons.1 hsorted
    by_cases h : p.1 ≤ a
    · simp [h, ih hrest]
    · have hnone : (rest.filter fun q => decide (q.1 ≤ a)) = [] := by
        refine List.filter_eq_nil_iff.2 fun q hq hle => h ?_
        exact UInt64.le_of_lt (UInt64.lt_of_lt_of_le (hp q hq) (of_decide_eq_true hle))
      simp [h, hnone]

theorem floor?_eq_some_iff {m : AddressMap α} {a : Address} {p : Address × α} :
    m.floor? a = some p ↔ p ∈ m.entries ∧ p.1 ≤ a ∧ ∀ q ∈ m.entries, q.1 ≤ a → q.1 ≤ p.1 := by
  have hmem {q : Address × α} :
      q ∈ (m.entries.filter fun p => p.1 ≤ a) ↔ q ∈ m.entries ∧ q.1 ≤ a := by simp
  have hsorted := m.sorted.filter fun p => p.1 ≤ a
  rw [floor?, takeWhile_le_eq_filter]
  constructor
  · intro h
    obtain ⟨before, hsplit⟩ := List.getLast?_eq_some_iff.1 h
    have hp : p ∈ m.entries ∧ p.1 ≤ a := hmem.1 (by rw [hsplit]; simp)
    refine ⟨hp.1, hp.2, fun q hq hle => ?_⟩
    have hq' : q ∈ before ++ [p] := hsplit ▸ hmem.2 ⟨hq, hle⟩
    rw [hsplit, List.pairwise_append] at hsorted
    rcases List.mem_append.1 hq' with hq' | hq'
    · exact UInt64.le_of_lt (hsorted.2.2 q hq' p List.mem_cons_self)
    · rw [List.mem_singleton.1 hq']
      exact UInt64.le_refl _
  · rintro ⟨hp, hle, hmax⟩
    cases hlast : (m.entries.filter fun p => p.1 ≤ a).getLast? with
    | none =>
      rw [List.getLast?_eq_none_iff] at hlast
      have := hmem.2 ⟨hp, hle⟩
      rw [hlast] at this
      exact absurd this List.not_mem_nil
    | some q =>
      -- The last entry is not below `p`, which is among the entries before it or is that entry.
      obtain ⟨before, hsplit⟩ := List.getLast?_eq_some_iff.1 hlast
      have hq : q ∈ m.entries ∧ q.1 ≤ a := hmem.1 (by rw [hsplit]; simp)
      have hp' : p ∈ before ++ [q] := hsplit ▸ hmem.2 ⟨hp, hle⟩
      rw [hsplit, List.pairwise_append] at hsorted
      rcases List.mem_append.1 hp' with hp' | hp'
      · have hlt := hsorted.2.2 p hp' q List.mem_cons_self
        exact absurd (hmax q hq.1 hq.2) (UInt64.not_le.2 hlt)
      · rw [List.mem_singleton.1 hp']

/-! ## Changes -/

theorem mem_place_self (a : Address) (x : α) (l : List (Address × α)) : (a, x) ∈ place a x l := by
  induction l with
  | nil => simp [place]
  | cons p rest ih =>
    simp only [place]
    split
    · exact List.mem_cons_self
    · split
      · exact List.mem_cons_self
      · exact List.mem_cons_of_mem _ ih

theorem mem_place_of_ne {a : Address} {x : α} {p : Address × α} {l : List (Address × α)}
    (h : p ∈ l) (hne : p.1 ≠ a) : p ∈ place a x l := by
  induction l with
  | nil => cases h
  | cons q rest ih =>
    simp only [place]
    split
    · exact List.mem_cons_of_mem _ h
    · split
      · rename_i heq
        rcases List.mem_cons.1 h with rfl | h
        · exact absurd heq.symm hne
        · exact List.mem_cons_of_mem _ h
      · rcases List.mem_cons.1 h with rfl | h
        · exact List.mem_cons_self
        · exact List.mem_cons_of_mem _ (ih h)

/-- The new entry takes the place of an old one at its address, and all others stay. -/
theorem mem_insert_iff {m : AddressMap α} {a : Address} {x : α} {p : Address × α} :
    p ∈ (m.insert a x).entries ↔ p = (a, x) ∨ (p ∈ m.entries ∧ p.1 ≠ a) := by
  constructor
  · intro h
    by_cases ha : p.1 = a
    · exact Or.inl (eq_of_mem h (mem_place_self a x m.entries) ha)
    · rcases mem_place h with rfl | h
      · exact absurd rfl ha
      · exact Or.inr ⟨h, ha⟩
  · rintro (rfl | ⟨h, hne⟩)
    · exact mem_place_self a x m.entries
    · exact mem_place_of_ne h hne

theorem mem_modify_iff {m : AddressMap α} {a : Address} {f : α → α} {p : Address × α} :
    p ∈ (m.modify a f).entries ↔
      ∃ x, (p.1, x) ∈ m.entries ∧ p.2 = if p.1 = a then f x else x := by
  simp only [modify, List.mem_map]
  constructor
  · rintro ⟨⟨k, x⟩, h, rfl⟩
    refine ⟨x, ?_, ?_⟩ <;> split <;> simp_all
  · rintro ⟨x, h, hx⟩
    refine ⟨(p.1, x), h, Prod.ext ?_ ?_⟩
    · split <;> rfl
    · rw [hx]
      split <;> rfl

/-! ## Changes after changes -/

theorem eq_of_entries {m m' : AddressMap α} (h : m.entries = m'.entries) : m = m' := by
  cases m
  cases m'
  cases h
  rfl

/-- A map is what is looked up in it. -/
theorem eq_of_get? {m m' : AddressMap α} (h : ∀ a, m.get? a = m'.get? a) : m = m' := by
  apply eq_of_entries
  have hmem (p : Address × α) : p ∈ m.entries ↔ p ∈ m'.entries := by
    rw [← get?_eq_some_iff, ← get?_eq_some_iff, h]
  have hnodup {m : AddressMap α} : m.entries.Nodup :=
    m.sorted.imp fun hlt heq => UInt64.ne_of_lt hlt (congrArg Prod.fst heq)
  refine ((List.perm_ext_iff_of_nodup hnodup hnodup).2 hmem).eq_of_pairwise
    (fun p q _ _ hlt hgt => ?_) m.sorted
    m'.sorted
  exact absurd (UInt64.lt_trans hlt hgt) (UInt64.lt_irrefl _)

theorem modify_modify (m : AddressMap α) (a : Address) (f g : α → α) :
    (m.modify a f).modify a g = m.modify a (g ∘ f) := by
  apply eq_of_entries
  simp only [modify, List.map_map]
  congr 1
  funext p
  by_cases h : p.1 = a <;> simp [h]

theorem modify_comm (m : AddressMap α) {a b : Address} (hne : a ≠ b) (f g : α → α) :
    (m.modify a f).modify b g = (m.modify b g).modify a f := by
  apply eq_of_entries
  simp only [modify, List.map_map]
  congr 1
  funext p
  by_cases ha : p.1 = a
  · simp [ha, hne]
  · by_cases hb : p.1 = b
    · simp [hb, Ne.symm hne]
    · simp [ha, hb]

theorem get?_modify (m : AddressMap α) (a b : Address) (f : α → α) :
    (m.modify a f).get? b = if b = a then (m.get? b).map f else m.get? b := by
  apply Option.ext
  intro x
  rw [get?_eq_some_iff, mem_modify_iff]
  by_cases h : b = a
  · simp only [h, if_true, Option.map_eq_some_iff, get?_eq_some_iff]
    exact exists_congr fun y => and_congr_right fun _ => eq_comm
  · simp [h, get?_eq_some_iff]

theorem get?_insert (m : AddressMap α) (a b : Address) (x : α) :
    (m.insert a x).get? b = if b = a then some x else m.get? b := by
  apply Option.ext
  intro y
  rw [get?_eq_some_iff, mem_insert_iff]
  by_cases h : b = a
  · simp [h, eq_comm]
  · simp [h, get?_eq_some_iff]

/-- A change in place keeps the addresses, so it does not change which entry is the greatest below
another. -/
theorem floor?_modify (m : AddressMap α) (a b : Address) (f : α → α) :
    (m.modify a f).floor? b = (m.floor? b).map fun p => if p.1 = a then (p.1, f p.2) else p := by
  have hkey : ((fun p : Address × α => decide (p.1 ≤ b)) ∘
      fun p => if p.1 = a then (p.1, f p.2) else p) = fun p => decide (p.1 ≤ b) := by
    funext p
    by_cases h : p.1 = a <;> simp [h]
  rw [floor?, modify, List.takeWhile_map, List.getLast?_map, hkey, floor?]

/-- There is nothing to change at an address without a value. -/
theorem modify_of_get?_eq_none {m : AddressMap α} {a : Address} (h : m.get? a = none) (f : α → α) :
    m.modify a f = m := by
  apply eq_of_entries
  have hne : ∀ p ∈ m.entries, p.1 ≠ a := by
    intro p hp ha
    have hget := get?_eq_some_iff.2 hp
    rw [ha, h] at hget
    cases hget
  calc
    (m.modify a f).entries = m.entries.map id :=
      List.map_congr_left fun p hp => by simp [hne p hp]
    _ = m.entries := List.map_id _

end FirmScan.AddressMap
