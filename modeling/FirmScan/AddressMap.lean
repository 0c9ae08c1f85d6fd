import FirmScan.Address

/-!
# Maps from addresses

A map keeps its entries in strictly increasing order of their addresses, so a map is determined by
its entries, and the entry at or below an address is the last one of an initial run (`floor?`).
-/

namespace FirmScan

universe u

structure AddressMap (α : Type u) where
  entries : List (Address × α)
  sorted : entries.Pairwise fun p q => p.1 < q.1

namespace AddressMap

variable {α : Type u}

def empty : AddressMap α := ⟨[], .nil⟩

instance : Inhabited (AddressMap α) := ⟨empty⟩

def get? (m : AddressMap α) (a : Address) : Option α := m.entries.lookup a

def values (m : AddressMap α) : List α := m.entries.map Prod.snd

/-- The last entry whose address is not above `a`. -/
def floor? (m : AddressMap α) (a : Address) : Option (Address × α) :=
  (m.entries.takeWhile fun p => p.1 ≤ a).getLast?

/-! ## Insertion -/

/-- Put an entry in its place; an entry at the same address gives way. -/
def place (a : Address) (x : α) : List (Address × α) → List (Address × α)
  | [] => [(a, x)]
  | p :: rest =>
    if a < p.1 then (a, x) :: p :: rest
    else if a = p.1 then (a, x) :: rest
    else p :: place a x rest

theorem mem_place {a : Address} {x : α} {p : Address × α} {l : List (Address × α)}
    (h : p ∈ place a x l) : p = (a, x) ∨ p ∈ l := by
  induction l with
  | nil => simpa [place] using h
  | cons q rest ih =>
    simp only [place] at h
    split at h
    · simpa using h
    · split at h
      · rcases List.mem_cons.1 h with h | h
        · exact Or.inl h
        · exact Or.inr (List.mem_cons_of_mem _ h)
      · rcases List.mem_cons.1 h with h | h
        · exact Or.inr (h ▸ List.mem_cons_self)
        · exact (ih h).imp_right (List.mem_cons_of_mem _)

theorem pairwise_place (a : Address) (x : α) {l : List (Address × α)}
    (h : l.Pairwise fun p q => p.1 < q.1) : (place a x l).Pairwise fun p q => p.1 < q.1 := by
  induction l with
  | nil => simp [place]
  | cons q rest ih =>
    obtain ⟨hq, hrest⟩ := List.pairwise_cons.1 h
    simp only [place]
    split
    · rename_i hlt
      refine List.pairwise_cons.2 ⟨fun p hp => ?_, h⟩
      rcases List.mem_cons.1 hp with rfl | hp
      · exact hlt
      · exact UInt64.lt_trans hlt (hq p hp)
    · rename_i hnlt
      split
      · rename_i heq
        subst heq
        exact List.pairwise_cons.2 ⟨hq, hrest⟩
      · rename_i hne
        refine List.pairwise_cons.2 ⟨fun p hp => ?_, ih hrest⟩
        rcases mem_place hp with rfl | hp
        · exact UInt64.lt_of_le_of_ne (UInt64.not_lt.1 hnlt) (Ne.symm hne)
        · exact hq p hp

def insert (m : AddressMap α) (a : Address) (x : α) : AddressMap α :=
  ⟨place a x m.entries, pairwise_place a x m.sorted⟩

/-! ## Change in place -/

/-- Change the value at an address, if it has one. -/
def modify (m : AddressMap α) (a : Address) (f : α → α) : AddressMap α where
  entries := m.entries.map fun p => if p.1 = a then (p.1, f p.2) else p
  sorted := by
    refine List.pairwise_map.2 (m.sorted.imp fun {p q} h => ?_)
    split <;> split <;> exact h

end AddressMap

end FirmScan
