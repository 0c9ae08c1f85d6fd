import FirmScan.Proofs.Access.Printed
import FirmScan.Proofs.Lists

/-!
# The survey of a printed program

The survey of the printed lines of a program is what the program accesses: the same accesses in the
same order with the same targets, as many skipped accesses and as many data (`ofListing_text`).

**Simulation.** A survey goes through the instructions with a table of known registers, a program is
executed on a function from registers to what they hold. The two agree (`Agrees`) at the start.
While they agree, an instruction has the target that its item accesses (`access?_eq`), and they
agree after it (`Agrees.observe`). Induction over the program carries this through (`found_run`).
-/

namespace FirmScan.Program

/-! ## Registers -/

theorem lookup_put (k : Register) (a : Address) (bases : List (Register × Address))
    (k' : Register) :
    (Registers.put k a bases).lookup k' = if k' = k then some a else bases.lookup k' := by
  induction bases with
  | nil => exact lookup_cons_ite k k' a []
  | cons p bases ih =>
    obtain ⟨kp, ap⟩ := p
    by_cases hp : kp = k
    · rw [Registers.put, if_pos hp, lookup_cons_ite, lookup_cons_ite, hp]
      by_cases h : k' = k
      · rw [if_pos h, if_pos h]
      · rw [if_neg h, if_neg h, if_neg h]
    · rw [Registers.put, if_neg hp, lookup_cons_ite, lookup_cons_ite, ih]
      by_cases h : k' = k
      · rw [if_neg (fun hk => hp (hk.symm.trans h)), if_pos h, if_pos h]
      · rw [if_neg h, if_neg h]

/-- The table of known registers lists what the registers hold. -/
def Agrees (r : Registers) (bases : Bases) : Prop := ∀ k, r.bases.lookup k = bases k

namespace Agrees

variable {r : Registers} {bases : Bases}

theorem empty : Agrees .empty fun _ => none := fun _ => rfl

theorem set (hag : Agrees r bases) (k : Register) (a : Address) :
    Agrees (r.set k a) (Function.update bases k (some a)) := by
  intro k'
  rw [Registers.set, lookup_put, hag k', Function.update_apply]

theorem base?_chars (hag : Agrees r bases) (rn : RegisterName) :
    r.base? rn.chars = bases rn.key := by
  rw [Registers.base?, rn.register_chars, hag]

theorem base?_key (hag : Agrees r bases) (rn : RegisterName) : r.base? rn.key = bases rn.key := by
  rw [Registers.base?, rn.register_key, hag]

end Agrees

/-! ## The data -/

section Data

variable (h : HexCase)

theorem line_of_datum?_eq_none {i : Item} (hi : i.statement.datum? = none) :
    i.line h = .instruction (i.instruction h) := by
  rw [Item.line, hi]

theorem collect_of_datum?_eq_none (pool : Pool) {i : Item} (hi : i.statement.datum? = none) :
    collect pool i = pool := by
  obtain ⟨a, s⟩ := i
  cases s with
  | word v => cases hi
  | loadLiteral | loadPool | load | store | addTo | add | bitwise => rfl

theorem foldl_collect (items : List Item) (pool : Pool) (a : Address) :
    items.foldl collect pool a =
      (Survey.poolOf (Survey.dataOf (items.map (Item.line h))) a).or (pool a) := by
  induction items generalizing pool with
  | nil => rfl
  | cons i items ih =>
    rw [List.foldl_cons, ih, List.map_cons]
    rcases i.statement.mnemonic_cases with ⟨v, hv⟩ | ⟨hi, -⟩
    · -- the data are searched from the last one on, so this one comes after the rest
      have hdata : Survey.dataOf (i.line h :: items.map (Item.line h)) =
          (i.address, v) :: Survey.dataOf (items.map (Item.line h)) := by
        rw [Item.line, hv]
        rfl
      have hcollect : collect pool i = Function.update pool i.address (some v) := by
        rw [collect, hv]
      rw [hdata, hcollect, Survey.poolOf, Survey.poolOf, List.reverse_cons, List.lookup_append,
        Option.or_assoc, lookup_cons_ite, Function.update_apply]
      by_cases ha : a = i.address
      · rw [if_pos ha, if_pos ha, Option.some_or]
      · rw [if_neg ha, if_neg ha, List.lookup_nil, Option.none_or]
    · rw [line_of_datum?_eq_none h hi, collect_of_datum?_eq_none pool hi]
      rfl

/-- The data of a program are the data of its lines. -/
theorem pool_eq (items : List Item) :
    pool items = Survey.poolOf (Survey.dataOf (items.map (Item.line h))) := by
  funext a
  rw [pool, foldl_collect h, Option.or_none]

end Data

/-! ## One instruction -/

section Step

variable {r : Registers} {bases : Bases} (h : HexCase) (pool : Pool) (i : Item)

/-- The number that a place far from any known base stands for. -/
theorem absolute?_place (rd : RegisterName) (rb : BaseName) (offset : Displacement) :
    Registers.absolute? ([','].intercalate [rd.chars, bracketed h rb.chars offset]) =
      offset.absolute? := by
  have htext : [','].intercalate [rd.chars, bracketed h rb.chars offset] =
      (rd.chars ++ ',' :: '[' :: (rb.chars ++ [','])) ++ offset.text h ++ [']'] := by
    simp [List.intercalate, bracketed]
  rw [htext]
  refine offset.absolute?_text h fun c hc => ?_
  simp only [List.mem_append, List.mem_cons, List.not_mem_nil, or_false] at hc
  rcases hc with hc | rfl | rfl | hc | rfl
  · exact Operand.ne_mark_of_isAlphanum (rd.alphanumeric c hc)
  · decide
  · decide
  · exact Operand.ne_mark_of_isAlphanum (rb.alphanumeric c hc)
  · decide

theorem scanImmediate?_mask (rd rn : RegisterName) (mask : UInt64) :
    Operand.scanImmediate? ([','].intercalate [rd.chars, rn.chars, '#' :: h.numeral mask.toNat]) =
      some mask := by
  have htext : [','].intercalate [rd.chars, rn.chars, '#' :: h.numeral mask.toNat] =
      (rd.chars ++ ',' :: (rn.chars ++ [','])) ++
        '#' :: '0' :: 'x' :: (h.digits mask.toNat ++ []) := by
    simp [List.intercalate, HexCase.numeral]
  rw [htext, Operand.scanImmediate?_append, Operand.scanImmediate?_hex (h.natural?_digits _)
    mask.toNat_lt (fun c hc => by cases hc), UInt64.ofNat_toNat]
  intro c hc
  simp only [List.mem_append, List.mem_cons, List.not_mem_nil, or_false] at hc
  rcases hc with hc | rfl | hc | rfl
  · exact Operand.ne_mark_of_isAlphanum (rd.alphanumeric c hc)
  · decide
  · exact Operand.ne_mark_of_isAlphanum (rn.alphanumeric c hc)
  · decide

/-- While register table and registers agree, an instruction has the target that its item
accesses. -/
theorem access?_eq (hag : Agrees r bases) :
    access? pool bases i = (Access.ofMnemonic? i.statement.mnemonic).map fun k =>
      (k, r.target? pool (i.instruction h) k) := by
  obtain ⟨a, s⟩ := i
  have hsplit := s.split_operandText h
  cases s with
  | word v => rfl
  | addTo rd rs immediate => rfl
  | add rd immediate => rfl
  | loadLiteral rd v fits =>
    show some (Access.read, _) = some (Access.read, _)
    simp only [Registers.target?, Item.instruction, hsplit, Statement.operands,
      parse_literal_numeral h fits]
    rfl
  | loadPool rd offset =>
    show some (Access.read, _) = some (Access.read, _)
    simp only [Registers.target?, Item.instruction, hsplit, Statement.operands, parse_bracketed_pc,
      Registers.literal?, add_pcAhead_add_toUInt64, Option.or_none]
    rfl
  | load rd rb offset =>
    show some (Access.read, _) = some (Access.read, _)
    simp only [Registers.target?, Item.instruction, hsplit, Statement.operands, parse_bracketed,
      Registers.literal?, hag.base?_key, add_toUInt64]
    cases bases rb.key with
    | some b => rfl
    | none => exact congrArg (fun t => some (Access.read, t)) (absolute?_place h rd rb offset).symm
  | store rd rb offset =>
    show some (Access.write, _) = some (Access.write, _)
    simp only [Registers.target?, Item.instruction, hsplit, Statement.operands, parse_bracketed,
      hag.base?_key, add_toUInt64]
    cases bases rb.key with
    | some b => rfl
    | none => exact congrArg (fun t => some (Access.write, t)) (absolute?_place h rd rb offset).symm
  | bitwise op rd rn mask =>
    have hmask :=
      congrArg (fun m => some (op.kind, some (m.getD 0))) (scanImmediate?_mask h rd rn mask)
    cases op with
    | orr | and | bic | eor => exact hmask.symm

/-- A load assigns what it is known to load. -/
theorem Agrees.load (hag : Agrees r bases) (rd : RegisterName) (ins : Instruction)
    {source : List Char} {v? : Option Address}
    (hread : Access.ofMnemonic? ins.mnemonic = some .read)
    (hsplit : Operand.split ins.operands = [rd.chars, source])
    (hloaded : r.loaded? pool ins.address (Operand.parse source) = v?) :
    Agrees (r.observe pool ins) (assign bases (v?.map fun v => (rd.key, v))) := by
  simp only [Registers.observe, if_pos hread, hsplit, hloaded, rd.register_chars]
  cases v? with
  | some v => exact hag.set rd.key v
  | none => exact hag

/-- An addition assigns the sum if the source is known. -/
theorem Agrees.add (hag : Agrees r bases) (rd rs : RegisterName) (immediate : Displacement) :
    Agrees (r.add rd.chars rs.chars (immediate.text h))
      (assign bases ((bases rs.key).map fun a => (rd.key, displaced a immediate.value))) := by
  simp only [Registers.add, hag.base?_chars, immediate.markedImmediate?_text, rd.register_chars]
  cases bases rs.key with
  | some a =>
    show Agrees (r.set rd.key (a + (Int64.ofInt immediate.value).toUInt64)) _
    rw [add_toUInt64]
    exact hag.set rd.key _
  | none => exact hag

/-- Register table and registers agree after an instruction if they agreed before. -/
theorem Agrees.observe (hag : Agrees r bases) :
    Agrees (r.observe pool (i.instruction h)) (assign bases (assignment? pool bases i)) := by
  obtain ⟨a, s⟩ := i
  have hsplit := s.split_operandText h
  cases s with
  | word v => exact hag
  | store rd rb offset => exact hag
  | bitwise op rd rn mask =>
    cases op with
    | orr | and | bic | eor => exact hag
  | loadLiteral rd v fits =>
    have hloaded : r.loaded? pool a (Operand.parse ('=' :: h.numeral v.toNat)) = some v := by
      rw [parse_literal_numeral h fits]
      rfl
    exact hag.load pool rd (Item.instruction h ⟨a, .loadLiteral rd v fits⟩) rfl hsplit hloaded
  | loadPool rd offset =>
    have hloaded : r.loaded? pool a (Operand.parse (bracketed h ['P', 'C'] offset)) =
        pool (displaced a (8 + offset.value)) := by
      simp only [parse_bracketed_pc, Registers.loaded?, Registers.literal?,
        add_pcAhead_add_toUInt64, Option.or_none]
    exact hag.load pool rd (Item.instruction h ⟨a, .loadPool rd offset⟩) rfl hsplit hloaded
  | load rd rb offset =>
    have hloaded : r.loaded? pool a (Operand.parse (bracketed h rb.chars offset)) =
        (bases rb.key).bind fun b => pool (displaced b offset.value) := by
      rw [parse_bracketed, Registers.loaded?]
      simp only [Registers.literal?, Option.none_or, hag.base?_key, add_toUInt64]
    exact hag.load pool rd (Item.instruction h ⟨a, .load rd rb offset⟩) rfl hsplit hloaded
  | addTo rd rs immediate =>
    simp only [Registers.observe, Item.instruction, hsplit, Statement.operands]
    exact hag.add h rd rs immediate
  | add rd immediate =>
    simp only [Registers.observe, Item.instruction, hsplit, Statement.operands]
    exact hag.add h rd rd immediate

end Step

/-! ## The whole program -/

/-- What has been found, with what the rest of a listing adds to it. -/
def extend (found : Survey) (later : List (Option Operation)) (data : Nat) : Survey where
  operations := found.operations ++ later.filterMap id
  skipped := found.skipped + later.countP (·.isNone)
  dataLines := found.dataLines + data

theorem extend_enter (found : Survey) (a : Address) (k : Access) (target? : Option Address)
    (later : List (Option Operation)) (data : Nat) :
    extend (enter found a (some (k, target?))) later data =
      extend found (target?.map (⟨a, k, ·⟩) :: later) data := by
  cases target? with
  | some target => simp [extend, enter]
  | none => simp [extend, enter, Nat.add_assoc, Nat.add_comm 1]

theorem extend_count_word (found : Survey) (v : UInt64) (later : List (Option Operation))
    (data : Nat) :
    extend (count found (.word v)) later data = extend found later (data + 1) := by
  simp [extend, count, Nat.add_comm, Nat.add_left_comm]

theorem count_of_datum?_eq_none (found : Survey) {s : Statement} (hs : s.datum? = none) :
    count found s = found := by
  cases s with
  | word v => cases hs
  | loadLiteral | loadPool | load | store | addTo | add | bitwise => rfl

/-- **Run.** What is found from a state on is what the remaining lines yield. -/
theorem found_run (h : HexCase) (pool : Pool) (items : List Item) {r : Registers} {s : State}
    (hag : Agrees r s.bases) :
    (items.foldl (step pool) s).found =
      extend s.found (Survey.outcomes pool r (Survey.instructionsOf (items.map (Item.line h))))
        (Survey.dataOf (items.map (Item.line h))).length := by
  induction items generalizing r s with
  | nil => simp [extend, Survey.outcomes, Survey.instructionsOf, Survey.dataOf]
  | cons i items ih =>
    rw [List.foldl_cons, List.map_cons]
    obtain ⟨a, st⟩ := i
    rcases st.mnemonic_cases with ⟨v, rfl⟩ | ⟨hst, -⟩
    · rw [ih (s := step pool s ⟨a, .word v⟩) hag]
      exact extend_count_word s.found v _ _
    · have hstep : (step pool s ⟨a, st⟩).found = enter s.found a (access? pool s.bases ⟨a, st⟩) :=
        count_of_datum?_eq_none _ hst
      rw [ih (hag.observe h pool ⟨a, st⟩), hstep, access?_eq h pool ⟨a, st⟩ hag,
        line_of_datum?_eq_none h hst]
      show _ = extend s.found (Survey.outcomes pool r (Item.instruction h ⟨a, st⟩ :: _)) _
      have hmnemonic : (Item.instruction h ⟨a, st⟩).mnemonic = st.mnemonic := rfl
      rw [Survey.outcomes, hmnemonic]
      cases Access.ofMnemonic? st.mnemonic with
      | none => rfl
      | some k => exact extend_enter _ _ _ _ _ _

/-- **A survey of the printed lines finds what the program accesses.** -/
theorem ofListing_text (h : HexCase) (items : List Item) :
    Survey.ofListing (items.map (Item.text h)) = survey items := by
  have hlines : (items.map (Item.text h)).filterMap (fun l => Line.parse? l.toList) =
      items.map (Item.line h) := by
    have hread : (fun l => Line.parse? l.toList) ∘ Item.text h = some ∘ Item.line h := by
      funext i
      exact i.parse?_text h
    rw [List.filterMap_map, hread, List.filterMap_eq_map]
  rw [Survey.ofListing, hlines, survey, found_run h (pool items) items Agrees.empty, pool_eq h]
  simp [Survey.ofLines, extend]

end FirmScan.Program
