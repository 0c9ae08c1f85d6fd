import FirmScan.Proofs.Access.Program
import FirmScan.Proofs.Listing.Line
import FirmScan.Proofs.Listing.Operand

/-!
# Printed programs are read back

The line of an item is read as the datum or the instruction that it is (`parse?_text`), and the
operands of an instruction are read as the registers, numbers and places that it names.

**Numbers.** Displacements are read as 64-bit words, and sums of words wrap. `add_toUInt64` says
that this is reduction modulo 2^64 of the sum in the integers.
-/

namespace FirmScan

/-! ## Numbers -/

theorem HexCase.natural?_digits (h : HexCase) (n : Nat) :
    Numeral.natural? 16 (h.digits n) = some n := by
  cases h with
  | lower => exact Numeral.natural?_lowerHex n
  | upper => exact Numeral.natural?_upperHex n

theorem HexCase.isPlain_numeral (h : HexCase) (n : Nat) : ∀ c ∈ h.numeral n, Operand.isPlain c :=
  Operand.isPlain_marked (h.natural?_digits n)

theorem HexCase.hexLiteral?_numeral (h : HexCase) (v : UInt64) :
    Address.hexLiteral? (h.numeral v.toNat) = some v := by
  have hdigits : Address.hexDigits? (h.numeral v.toNat) = some (h.digits v.toNat) := by
    have hafter : Text.after? ['0', 'x'] (h.numeral v.toNat) = some (h.digits v.toNat) :=
      Text.after?_append _ _
    rw [Address.hexDigits?, hafter, Option.some_or]
  rw [Address.hexLiteral?, Operand.trim_of_isPlain (h.isPlain_numeral _), hdigits, Option.bind_some,
    Numeral.unsigned64?_of_natural? (h.natural?_digits _) v.toNat_lt, UInt64.ofNat_toNat]

theorem toUInt64_ofInt (n : Int) : (Int64.ofInt n).toUInt64 = UInt64.ofInt n := by
  apply UInt64.toNat_inj.1
  show (Int64.ofInt n).toBitVec.toNat = _
  rw [Int64.toBitVec_ofInt, BitVec.toNat_ofInt, UInt64.ofInt, UInt64.toNat_ofNat', Nat.mod_eq_of_lt]
  · rfl
  · omega

/-- Adding a displacement as a word. -/
theorem add_toUInt64 (a : Address) (n : Int) : a + (Int64.ofInt n).toUInt64 = displaced a n := by
  have ha : UInt64.ofInt a.toNat = a := by
    rw [← toUInt64_ofInt, Int64.ofInt_eq_ofNat, Int64.toUInt64_ofNat', UInt64.ofNat_toNat]
  rw [displaced, UInt64.ofInt_add, ha, toUInt64_ofInt]

theorem add_pcAhead_add_toUInt64 (a : Address) (n : Int) :
    a + Registers.pcAhead + (Int64.ofInt n).toUInt64 = displaced a (8 + n) := by
  rw [← add_toUInt64, toUInt64_ofInt, toUInt64_ofInt, UInt64.ofInt_add, UInt64.add_assoc]
  rfl

namespace Displacement

variable {d : Displacement}

theorem text_of_nonneg (h : HexCase) (hneg : d.negative = false) :
    d.text h = '#' :: h.numeral d.magnitude := by
  simp [text, hneg]

theorem text_of_neg (h : HexCase) (hneg : d.negative = true) :
    d.text h = '#' :: '-' :: h.numeral d.magnitude := by
  simp [text, hneg]

theorem isPlain_text (h : HexCase) (d : Displacement) : ∀ c ∈ d.text h, Operand.isPlain c := by
  have hnumeral := h.isPlain_numeral d.magnitude
  cases hneg : d.negative with
  | false =>
    rw [text_of_nonneg h hneg]
    exact List.forall_mem_cons.2 ⟨by decide, hnumeral⟩
  | true =>
    rw [text_of_neg h hneg]
    exact List.forall_mem_cons.2 ⟨by decide, List.forall_mem_cons.2 ⟨by decide, hnumeral⟩⟩

/-- A printed displacement is read as its value. -/
theorem markedImmediate?_text (h : HexCase) (d : Displacement) :
    Operand.markedImmediate? (d.text h) = some (Int64.ofInt d.value) := by
  have hdigits := h.natural?_digits d.magnitude
  have hplain := d.isPlain_text h
  cases hneg : d.negative with
  | false =>
    rw [text_of_nonneg h hneg] at hplain ⊢
    rw [Operand.markedImmediate?_mark (List.forall_mem_cons.1 hplain).2 (by simp [HexCase.numeral]),
      value, hneg]
    exact Operand.immediate?_hex hdigits d.fits
  | true =>
    rw [text_of_neg h hneg] at hplain ⊢
    rw [Operand.markedImmediate?_mark (List.forall_mem_cons.1 hplain).2 (by simp), value, hneg]
    exact Operand.immediate?_neg_hex hdigits d.fits

/-- The number in a printed place is found if it has no sign. -/
theorem absolute?_text (h : HexCase) (d : Displacement) {w : List Char}
    (hw : ∀ c ∈ w, c ≠ '=' ∧ c ≠ '#') :
    Registers.absolute? (w ++ d.text h ++ [']']) = d.absolute? := by
  have hdigits := h.natural?_digits d.magnitude
  have hfits : d.magnitude < 2 ^ 64 := Nat.lt_trans d.fits (by decide)
  rw [Registers.absolute?, List.append_assoc, Operand.scanImmediate?_append hw]
  cases hneg : d.negative with
  | false =>
    have hscan : Operand.scanImmediate? (d.text h ++ [']']) = some (UInt64.ofNat d.magnitude) := by
      rw [text_of_nonneg h hneg]
      refine Operand.scanImmediate?_hex hdigits hfits fun c hc => ?_
      cases hc
      rfl
    have hle : Registers.minAbsolute ≤ UInt64.ofNat d.magnitude ↔ 0x100 ≤ d.magnitude := by
      rw [UInt64.le_iff_toNat_le, UInt64.toNat_ofNat', Nat.mod_eq_of_lt hfits]
      rfl
    simp only [hscan, Option.filter_some, hle, absolute?, hneg, true_and, decide_eq_true_eq]
  | true =>
    -- the sign hides the number, and nothing behind it is marked
    have hscan : Operand.scanImmediate? (d.text h ++ [']']) = none := by
      rw [text_of_neg h hneg]
      show (Operand.hexAt? ('-' :: (h.numeral d.magnitude ++ [']']))).or
        (Operand.scanImmediate? ('-' :: (h.numeral d.magnitude ++ [']']))) = none
      refine Operand.scanImmediate?_eq_none fun c hc => ?_
      simp only [HexCase.numeral, List.mem_cons, List.mem_append, List.not_mem_nil, or_false] at hc
      rcases hc with rfl | (rfl | rfl | hc) | rfl
      · decide
      · decide
      · decide
      · have hdigit := Numeral.isHexDigit_of_natural? hdigits c hc
        exact Operand.ne_mark_of_isAlphanum (Numeral.isAlphanum_of_isHexDigit hdigit)
      · decide
    simp [hscan, absolute?, hneg]

end Displacement

/-! ## Places -/

theorem RegisterName.register_chars (r : RegisterName) : Operand.register r.chars = r.key :=
  Operand.register_of_isAlphanum r.alphanumeric

/-- A register that was read is read as itself. -/
theorem RegisterName.register_key (r : RegisterName) : Operand.register r.key = r.key := by
  have hkey : ∀ c ∈ r.key, c.isAlphanum := by
    intro c hc
    obtain ⟨c, hmem, rfl⟩ := List.mem_map.1 hc
    exact Text.isAlphanum_toUpper (r.alphanumeric c hmem)
  rw [Operand.register_of_isAlphanum hkey, key, Text.upper_upper]

theorem RegisterName.isPlain_chars (r : RegisterName) : ∀ c ∈ r.chars, Operand.isPlain c :=
  fun c hc => Operand.isPlain_of_isAlphanum (r.alphanumeric c hc)

theorem isAlphanum_pc : ∀ c ∈ ['P', 'C'], c.isAlphanum := by
  simp

theorem parse_literal_numeral (h : HexCase) {v : UInt64} (fits : v.toNat < 2 ^ 63) :
    Operand.parse ('=' :: h.numeral v.toNat) = .literal v := by
  rw [HexCase.numeral, Operand.parse_literal (h.natural?_digits v.toNat) fits, UInt64.ofNat_toNat]

theorem parse_bracketed_pc (h : HexCase) (offset : Displacement) :
    Operand.parse (bracketed h ['P', 'C'] offset) = .pcRelative (Int64.ofInt offset.value) :=
  Operand.parse_brackets (by decide) isAlphanum_pc (offset.isPlain_text h)
    (offset.markedImmediate?_text h)

theorem parse_bracketed (h : HexCase) (rb : BaseName) (offset : Displacement) :
    Operand.parse (bracketed h rb.chars offset) =
      .baseOffset rb.key (Int64.ofInt offset.value) := by
  have hparse := Operand.parse_brackets rb.ne_nil rb.alphanumeric (offset.isPlain_text h)
    (offset.markedImmediate?_text h)
  exact hparse.trans (if_neg rb.ne_pc)

/-! ## Operands -/

/-- A printed operand stands alone, and it is made of plain characters and the marks around
places. -/
structure Printed (w : List Char) : Prop extends Operand.StandsAlone w where
  plain_or_mark : ∀ c ∈ w, Operand.isPlain c ∨ c ∈ ['[', ',', ']']

theorem printed_of_isPlain {w : List Char} (hne : w ≠ []) (h : ∀ c ∈ w, Operand.isPlain c) :
    Printed w where
  toStandsAlone := Operand.standsAlone_of_isPlain hne h
  plain_or_mark := fun c hc => .inl (h c hc)

theorem printed_bracketed (h : HexCase) {base : List Char} (hbase : ∀ c ∈ base, c.isAlphanum)
    (offset : Displacement) : Printed (bracketed h base offset) where
  toStandsAlone := by
    refine Operand.standsAlone_brackets fun c hc => ?_
    rw [List.mem_append, List.mem_cons] at hc
    rcases hc with hc | rfl | hc
    · exact Operand.nesting_of_isPlain (Operand.isPlain_of_isAlphanum (hbase c hc))
    · decide
    · exact Operand.nesting_of_isPlain (offset.isPlain_text h c hc)
  plain_or_mark := by
    intro c hc
    simp only [bracketed, List.cons_append, List.mem_cons, List.mem_append, List.append_assoc,
      List.not_mem_nil, or_false] at hc
    rcases hc with rfl | hc | rfl | hc | rfl
    · exact .inr (by decide)
    · exact .inl (Operand.isPlain_of_isAlphanum (hbase c hc))
    · exact .inr (by decide)
    · exact .inl (offset.isPlain_text h c hc)
    · exact .inr (by decide)

theorem RegisterName.printed_chars (r : RegisterName) : Printed r.chars :=
  printed_of_isPlain r.ne_nil r.isPlain_chars

theorem Displacement.printed_text (h : HexCase) (d : Displacement) : Printed (d.text h) :=
  printed_of_isPlain (by simp [text]) (d.isPlain_text h)

theorem HexCase.printed_numeral (h : HexCase) (n : Nat) : Printed (h.numeral n) :=
  printed_of_isPlain (by simp [numeral]) (h.isPlain_numeral n)

/-- A number with `=` or `#` in front. -/
theorem HexCase.printed_cons_numeral (h : HexCase) {c : Char} (hc : Operand.isPlain c) (n : Nat) :
    Printed (c :: h.numeral n) :=
  printed_of_isPlain (by simp) (List.forall_mem_cons.2 ⟨hc, h.isPlain_numeral n⟩)

namespace Statement

theorem printed_operands (h : HexCase) (s : Statement) : ∀ w ∈ s.operands h, Printed w := by
  cases s with
  | word v => simp [operands, h.printed_numeral]
  | loadLiteral rd v fits =>
    simp [operands, rd.printed_chars, h.printed_cons_numeral (c := '=') (by decide)]
  | loadPool rd offset =>
    have hpc := printed_bracketed h isAlphanum_pc offset
    simp [operands, rd.printed_chars, hpc]
  | load rd rb offset =>
    simp [operands, rd.printed_chars, printed_bracketed h rb.alphanumeric]
  | store rd rb offset =>
    simp [operands, rd.printed_chars, printed_bracketed h rb.alphanumeric]
  | addTo rd rs immediate =>
    simp [operands, rd.printed_chars, rs.printed_chars, immediate.printed_text]
  | add rd immediate => simp [operands, rd.printed_chars, immediate.printed_text]
  | bitwise op rd rn mask =>
    simp [operands, rd.printed_chars, rn.printed_chars,
      h.printed_cons_numeral (c := '#') (by decide)]

/-- The operands of a statement are found in its text. -/
theorem split_operandText (h : HexCase) (s : Statement) :
    Operand.split (s.operandText h) = s.operands h :=
  Operand.split_intercalate fun w hw => (s.printed_operands h w hw).toStandsAlone

theorem operandText_ne_nil (h : HexCase) (s : Statement) : s.operandText h ≠ [] := by
  -- no operand would be found in it
  intro hnil
  have hsplit := s.split_operandText h
  rw [hnil, show Operand.split [] = [] from rfl] at hsplit
  cases s with
  | word | loadLiteral | loadPool | load | store | addTo | add | bitwise => cases hsplit

/-- No blank and no comment in the operands. -/
theorem isInk_of_mem_operandText (h : HexCase) (s : Statement) :
    ∀ c ∈ s.operandText h, Line.isInk c := by
  intro c hc
  have hmark : ∀ c ∈ ['[', ',', ']'], Line.isInk c := List.all_eq_true.1 (by decide)
  have hc : Operand.isPlain c ∨ c ∈ ['[', ',', ']'] := by
    rcases Operand.eq_comma_or_of_mem_intercalate hc with rfl | ⟨w, hw, hc⟩
    · exact .inr (by decide)
    · exact (s.printed_operands h w hw).plain_or_mark c hc
  rcases hc with hc | hc
  · exact Line.isInk_iff.2 ⟨Operand.not_isBlank_of_isPlain hc, Operand.ne_of_isPlain hc rfl⟩
  · exact hmark c hc

end Statement

/-! ## Lines -/

namespace Statement

/-- The value of a statement that is a datum. -/
def datum? : Statement → Option UInt64
  | .word v => some v
  | _ => none

/-- The mnemonics of instructions. -/
def codes : List (List Char) :=
  ["LDR", "STR", "ADD", "ORR", "AND", "BIC", "EOR"].map String.toList

theorem mnemonic_cases (s : Statement) :
    (∃ v, s = .word v) ∨ s.datum? = none ∧ s.mnemonic ∈ codes := by
  cases s with
  | word v => exact .inl ⟨v, rfl⟩
  | bitwise op rd rn mask =>
    cases op with
    | orr | and | bic | eor => exact .inr ⟨rfl, by simp [mnemonic, BitOp.mnemonic, codes]⟩
  | loadLiteral | loadPool | load | store | addTo | add =>
    exact .inr ⟨rfl, by simp [mnemonic, codes]⟩

/-- Nothing in a code makes it look like a datum, like encoded bytes or like two words. -/
theorem of_mem_codes : ∀ m ∈ codes, Line.dataDirectives.contains (Text.lower m) = false ∧
    Line.mnemonicOf m = m ∧ Line.isByteColumn m = false ∧ m ≠ [] ∧ m.all Line.isInk := by
  decide

theorem datum?_word (h : HexCase) (v : UInt64) :
    Line.datum? ['.', 'w', 'o', 'r', 'd'] ((Statement.word v).operandText h) = some v := by
  have htext : (Statement.word v).operandText h = h.numeral v.toNat := List.intercalate_singleton
  have hcomma : (h.numeral v.toNat).contains ',' = false := by
    rw [List.contains_eq_mem, decide_eq_false_iff_not]
    exact fun hmem => absurd (h.isPlain_numeral _ _ hmem) (by decide)
  have hdirective : Line.dataDirectives.contains (Text.lower ['.', 'w', 'o', 'r', 'd']) = true := by
    decide
  rw [htext, Line.datum?, List.isEmpty_eq_false_iff.2 (h.printed_numeral _).ne_nil, hdirective,
    hcomma, h.hexLiteral?_numeral]
  rfl

end Statement

namespace Item

/-- The instruction of an item. -/
def instruction (h : HexCase) (i : Item) : Instruction :=
  ⟨i.address, i.statement.mnemonic, i.statement.operandText h⟩

/-- The line of an item. -/
def line (h : HexCase) (i : Item) : Line :=
  match i.statement.datum? with
  | some v => .data i.address v
  | none => .instruction (i.instruction h)

/-- **The line of an item is read as that item.** -/
theorem parse?_text (h : HexCase) (i : Item) : Line.parse? (i.text h).toList = some (i.line h) := by
  obtain ⟨a, s⟩ := i
  have haddress : Numeral.natural? 16 ((Numeral.upperHex a.toNat).leftpad 8 '0') = some a.toNat :=
    Numeral.natural?_leftpad (by decide) (Numeral.natural?_upperHex _) 8
  have hoperands := s.isInk_of_mem_operandText h
  have hne := s.operandText_ne_nil h
  rw [text, String.toList_ofList, line]
  rcases s.mnemonic_cases with ⟨v, rfl⟩ | ⟨hdatum, hcode⟩
  · have hword : ∀ c ∈ ['.', 'w', 'o', 'r', 'd'], Line.isInk c := List.all_eq_true.1 (by decide)
    have hparse := Line.parse?_line haddress a.toNat_lt hword (by decide) (by decide) hoperands hne
    rw [Statement.datum?_word, UInt64.ofNat_toNat] at hparse
    exact hparse
  · obtain ⟨hdirective, hmnemonic, hbytes, hword, hchars⟩ := Statement.of_mem_codes _ hcode
    have hvalue : Line.datum? s.mnemonic (s.operandText h) = none := by
      simp only [Line.datum?, List.isEmpty_eq_false_iff.2 hne, hdirective, Bool.false_and,
        Bool.false_eq_true, if_false]
    rw [Line.parse?_line haddress a.toNat_lt (List.all_eq_true.1 hchars) hbytes hword hoperands hne,
      hvalue, hdatum, hmnemonic, UInt64.ofNat_toNat]
    rfl

end Item

end FirmScan
