import FirmScan.Proofs.Access.Arrangement

/-!
# Every access is accounted for

A survey leaves out loads and stores whose target is not known. This file counts what it reports and
what it leaves out, for lines with any text.

**Theorem (`survey_accounts_for_lines`).** The operations of a survey are the accesses that the
lines spell, in their order and each with its address and kind, but for some loads and stores; and
the survey says how many these are. So the operations and those left out are as many as the lines
with an access, and bitwise operations are as many as their lines. Data are counted line by line.

**What is left out** (`Thinned`). A relation between the accesses of the lines, the accesses
reported and a number. It is built one access at a time, as the survey reads them
(`thinned_outcomes`), and a mask is never missing (`Registers.isMemory_of_target?_eq_none`).
-/

namespace FirmScan

/-- What an instruction accesses is not known only if it accesses memory. -/
theorem Registers.isMemory_of_target?_eq_none {pool : Pool} {r : Registers} {i : Instruction}
    {k : Access} (h : r.target? pool i k = none) : k.isMemory := by
  by_cases hk : k.isMemory
  · exact hk
  · simp [target?, hk] at h

namespace Survey

/-! ## Accesses with some left out -/

/-- The accesses that are found of all those that there are, and the number of loads and stores that
are not. -/
inductive Thinned : List (Address × Access) → List (Address × Access) → Nat → Prop
  | nil : Thinned [] [] 0
  | found (x : Address × Access) {all rest : List (Address × Access)} {n : Nat}
      (h : Thinned all rest n) :
    Thinned (x :: all) (x :: rest) n
  | leftOut (x : Address × Access) (hx : x.2.isMemory) {all rest : List (Address × Access)}
      {n : Nat}
    (h : Thinned all rest n) : Thinned (x :: all) rest (n + 1)

namespace Thinned

variable {all rest : List (Address × Access)} {n : Nat}

theorem length_add (h : Thinned all rest n) : rest.length + n = all.length := by
  induction h with
  | nil => rfl
  | found x _ ih =>
    rw [List.length_cons, List.length_cons]
    omega
  | leftOut x _ _ ih =>
    rw [List.length_cons]
    omega

/-- Of the bitwise kinds none is left out. -/
theorem countP_kind (h : Thinned all rest n) {k : Access} (hk : k.isMemory = false) :
    rest.countP (fun x => x.2 = k) = all.countP fun x => x.2 = k := by
  induction h with
  | nil => rfl
  | found x _ ih => rw [List.countP_cons, List.countP_cons, ih]
  | leftOut x hx _ ih =>
    have hne : x.2 ≠ k := by
      intro heq
      rw [heq, hk] at hx
      cases hx
    rw [List.countP_cons_of_neg (by simpa using hne), ih]

end Thinned

/-! ## Reading the lines -/

/-- The access of an instruction, if it is one. -/
def accessOf? (i : Instruction) : Option (Address × Access) :=
  (Access.ofMnemonic? i.mnemonic).map fun k => (i.address, k)

/-- The access that a line spells, if it is the line of an instruction and the instruction is an
access. -/
def accessIn? (line : String) : Option (Address × Access) := (instructionIn? line).bind accessOf?

/-- **The outcomes of instructions** are their accesses, in order, without loads and stores that
have no outcome. -/
theorem thinned_outcomes (pool : Pool) (r : Registers) (is : List Instruction) :
    Thinned (is.filterMap accessOf?)
      (((outcomes pool r is).filterMap id).map fun o => (o.address, o.kind))
      ((outcomes pool r is).countP (·.isNone)) := by
  induction is generalizing r with
  | nil => exact .nil
  | cons i is ih =>
    have hrest := ih (r.observe pool i)
    cases hkind : Access.ofMnemonic? i.mnemonic with
    | none =>
      have hnone : accessOf? i = none := by rw [accessOf?, hkind, Option.map_none]
      rw [outcomes_cons_of_none hkind, List.filterMap_cons_none hnone]
      exact hrest
    | some k =>
      have hsome : accessOf? i = some (i.address, k) := by rw [accessOf?, hkind, Option.map_some]
      rw [outcomes_cons_of_some hkind, List.filterMap_cons_some hsome]
      cases htarget : r.target? pool i k with
      | some target =>
        rw [Option.map_some, List.filterMap_cons_some (f := id) rfl, List.map_cons,
          List.countP_cons_of_neg (by simp)]
        exact .found (i.address, k) hrest
      | none =>
        have hmemory : k.isMemory := Registers.isMemory_of_target?_eq_none htarget
        rw [Option.map_none, List.filterMap_cons_none (f := id) rfl, List.countP_cons_of_pos rfl]
        exact .leftOut (i.address, k) hmemory hrest

theorem thinned_ofListing (lines : List String) :
    Thinned (lines.filterMap accessIn?)
      ((ofListing lines).operations.map fun o => (o.address, o.kind))
      (ofListing lines).skipped := by
  obtain ⟨hoperations, hskipped⟩ := ofListing_eq lines
  have haccesses : lines.filterMap accessIn? =
      (lines.filterMap instructionIn?).filterMap accessOf? :=
    (List.filterMap_filterMap ..).symm
  rw [hoperations, hskipped, haccesses]
  exact thinned_outcomes _ .empty _

/-- The operations of a bitwise kind are as many as its lines. -/
theorem count_of_isMemory_eq_false (lines : List String) {k : Access} (hk : k.isMemory = false) :
    (ofListing lines).count k = lines.countP fun line => (accessIn? line).any fun x => x.2 = k := by
  have hcount := (thinned_ofListing lines).countP_kind hk
  have hline : (fun line => ((accessIn? line).map fun x => decide (x.2 = k)).getD false) =
      fun line => (accessIn? line).any fun x => x.2 = k := by
    funext line
    cases accessIn? line <;> rfl
  rw [List.countP_map, List.countP_filterMap, hline] at hcount
  exact hcount

/-- **A survey accounts for every line.** Its operations are the accesses of the lines, in order,
without some loads and stores, and `skipped` is the number of these. Operations and those left out
are as many as the lines with an access, the bitwise operations of each kind as many as its lines,
and the data as many as the lines with a datum. -/
theorem survey_accounts_for_lines (lines : List String) :
    Thinned (lines.filterMap accessIn?)
      ((ofListing lines).operations.map fun o => (o.address, o.kind)) (ofListing lines).skipped ∧
    (ofListing lines).operations.length + (ofListing lines).skipped =
      lines.countP (fun line => (accessIn? line).isSome) ∧
    (ofListing lines).count .bitOr =
      lines.countP (fun line => (accessIn? line).any fun x => x.2 = .bitOr) ∧
    (ofListing lines).count .bitAnd =
      lines.countP (fun line => (accessIn? line).any fun x => x.2 = .bitAnd) ∧
    (ofListing lines).count .bitXor =
      lines.countP (fun line => (accessIn? line).any fun x => x.2 = .bitXor) ∧
    (ofListing lines).dataLines = lines.countP fun line => (datumIn? line).isSome := by
  have hthinned := thinned_ofListing lines
  have hlength := hthinned.length_add
  have hdata : (ofListing lines).dataLines = (lines.filterMap datumIn?).length := by
    rw [← dataOf_read]
    rfl
  rw [List.length_map, List.length_filterMap_eq_countP] at hlength
  rw [List.length_filterMap_eq_countP] at hdata
  exact ⟨hthinned, hlength, count_of_isMemory_eq_false lines rfl,
    count_of_isMemory_eq_false lines rfl, count_of_isMemory_eq_false lines rfl, hdata⟩

end Survey

end FirmScan
