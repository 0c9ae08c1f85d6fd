import FirmScan.Access.Registers

/-!
# What an instruction assigns

An instruction changes what is known of one register or of none. `assignment?` gives the register
and the value, and `observe_eq_assign` says that nothing else happens. What an assignment can be is
said once, in `assignment?_cases`: the value of a load, or the sum of an addition, and the register
is that of the first operand in either case.
-/

namespace FirmScan

namespace Instruction

/-- The first operand: the register that a load or an addition assigns to. -/
def destination? (i : Instruction) : Option (List Char) := (Operand.split i.operands)[0]?

/-- The second operand: the source of a load, the place of a store. -/
def source? (i : Instruction) : Option (List Char) := (Operand.split i.operands)[1]?

/-- The source as it is read. -/
def operand (i : Instruction) : Operand := (i.source?.map Operand.parse).getD .other

/-- The instruction is an addition, and its last operand is the immediate. -/
def AddsImmediate (i : Instruction) (n : Int64) : Prop :=
  Access.startsWith "ADD" i.mnemonic ∧
    ∃ last, (Operand.split i.operands).getLast? = some last ∧ Operand.markedImmediate? last = some n

theorem operand_of_source? {i : Instruction} {source : List Char} (h : i.source? = some source) :
    i.operand = Operand.parse source := by
  rw [operand, h]
  rfl

end Instruction

namespace Registers

/-- What is known after an assignment, if there is one. -/
def assign (r : Registers) : Option (Register × Address) → Registers
  | some (name, a) => r.set name a
  | none => r

/-- The assignment of an addition whose source and immediate are known. -/
def sum? (r : Registers) (destination source immediate : List Char) : Option (Register × Address) :=
  (r.base? source).bind fun a =>
    (Operand.markedImmediate? immediate).map fun n => (Operand.register destination, a + n.toUInt64)

/-- The register that an instruction assigns to, and the value that it gets. -/
def assignment? (pool : Pool) (r : Registers) (i : Instruction) : Option (Register × Address) :=
  if Access.ofMnemonic? i.mnemonic = some .read then
    i.destination?.bind fun destination =>
      (loaded? pool r i.address i.operand).map fun v => (Operand.register destination, v)
  else if Access.startsWith "ADD" i.mnemonic then
    match Operand.split i.operands with
    | [destination, source, immediate] => r.sum? destination source immediate
    | [destination, immediate] => r.sum? destination destination immediate
    | _ => none
  else none

variable {pool : Pool} {r : Registers} {i : Instruction}

theorem add_eq_assign (r : Registers) (destination source immediate : List Char) :
    r.add destination source immediate = r.assign (r.sum? destination source immediate) := by
  rw [add, sum?]
  cases r.base? source with
  | none => rfl
  | some a => cases Operand.markedImmediate? immediate <;> rfl

/-- **An instruction does nothing but its assignment.** -/
theorem observe_eq_assign (pool : Pool) (r : Registers) (i : Instruction) :
    r.observe pool i = r.assign (r.assignment? pool i) := by
  rw [observe, assignment?, Instruction.destination?, Instruction.operand, Instruction.source?]
  by_cases hread : Access.ofMnemonic? i.mnemonic = some .read
  · rw [if_pos hread, if_pos hread]
    -- Without a second operand nothing is loaded, whether or not there is a first one.
    rcases Operand.split i.operands with - | ⟨destination, - | ⟨source, rest⟩⟩
    · rfl
    · rfl
    · show _ = r.assign ((loaded? pool r i.address (Operand.parse source)).map _)
      cases hv : loaded? pool r i.address (Operand.parse source) with
      | none => simp only [hv, Option.map_none, assign]
      | some v => simp only [hv, Option.map_some, assign]
  · rw [if_neg hread, if_neg hread]
    by_cases hadd : Access.startsWith "ADD" i.mnemonic = true
    · rw [if_pos hadd, if_pos hadd]
      rcases Operand.split i.operands with -
        | ⟨first, - | ⟨second, - | ⟨third, - | ⟨fourth, rest⟩⟩⟩⟩
      · rfl
      · rfl
      · exact add_eq_assign r first first second
      · exact add_eq_assign r first second third
      · rfl
    · rw [if_neg hadd, if_neg hadd]
      rfl

theorem sum?_eq_some {destination source immediate : List Char} {name : Register} {v : Address}
    (h : r.sum? destination source immediate = some (name, v)) :
    name = Operand.register destination ∧
      ∃ a n, r.base? source = some a ∧ Operand.markedImmediate? immediate = some n ∧
        v = a + n.toUInt64 := by
  obtain ⟨a, ha, hmap⟩ := Option.bind_eq_some_iff.1 h
  obtain ⟨n, hn, heq⟩ := Option.map_eq_some_iff.1 hmap
  cases heq
  exact ⟨rfl, a, n, ha, hn, rfl⟩

/-- **What an assignment can be.** -/
theorem assignment?_cases {name : Register} {v : Address}
    (h : r.assignment? pool i = some (name, v)) :
    (∃ destination, i.destination? = some destination ∧ name = Operand.register destination) ∧
      ((Access.ofMnemonic? i.mnemonic = some .read ∧ loaded? pool r i.address i.operand = some v) ∨
        (Access.ofMnemonic? i.mnemonic ≠ some .read ∧
          ∃ source a n, r.base? source = some a ∧ i.AddsImmediate n ∧ v = a + n.toUInt64)) := by
  rw [assignment?] at h
  by_cases hread : Access.ofMnemonic? i.mnemonic = some .read
  · rw [if_pos hread] at h
    obtain ⟨destination, hdestination, hmap⟩ := Option.bind_eq_some_iff.1 h
    obtain ⟨w, hw, heq⟩ := Option.map_eq_some_iff.1 hmap
    cases heq
    exact ⟨⟨destination, hdestination, rfl⟩, Or.inl ⟨hread, hw⟩⟩
  · rw [if_neg hread] at h
    by_cases hadd : Access.startsWith "ADD" i.mnemonic = true
    · rw [if_pos hadd] at h
      split at h
      · rename_i destination source immediate hsplit
        obtain ⟨hname, a, n, ha, hn, hv⟩ := sum?_eq_some h
        have hlast : (Operand.split i.operands).getLast? = some immediate := by rw [hsplit]; rfl
        refine ⟨⟨destination, ?_, hname⟩,
          Or.inr ⟨hread, source, a, n, ha, ⟨hadd, immediate, hlast, hn⟩, hv⟩⟩
        rw [Instruction.destination?, hsplit]
        rfl
      · rename_i destination immediate hsplit
        obtain ⟨hname, a, n, ha, hn, hv⟩ := sum?_eq_some h
        have hlast : (Operand.split i.operands).getLast? = some immediate := by rw [hsplit]; rfl
        refine ⟨⟨destination, ?_, hname⟩,
          Or.inr ⟨hread, destination, a, n, ha, ⟨hadd, immediate, hlast, hn⟩, hv⟩⟩
        rw [Instruction.destination?, hsplit]
        rfl
      · cases h
    · rw [if_neg hadd] at h
      cases h

end Registers

end FirmScan
