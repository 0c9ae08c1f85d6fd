import FirmScan.Proofs.Access.Loads
import FirmScan.Proofs.Listing.Decorated

/-!
# Literals of loads and of data lines

A number marked as hex stands in a listing as inline data or as the literal `=t` of a load. Two
readers take it: a data line reads a word of 64 bits, and a load reads an immediate, whose value has
a sign. This file says when they agree.

**Spelling** (`magnitude?_of_hexDigits?`). Both readers know `0x`, `0X` and `h`. Data lines also
know `H`, and an immediate takes the number then for a decimal one that has a letter in it.

**Range** (`Numeral.signed64?_of_unsigned64?`). An immediate leaves one bit to the sign, so a word
of 2^63 or more is refused.

**Theorem (`literal_load_iff`).** For a text that a data line reads, `=t` is the literal of the same
value exactly if it is `Loadable`. If it is, the load makes the value known; if it is not, the load
changes nothing, and a register that held something before is still taken to hold it
(`literal_load_stale`).
-/

namespace FirmScan

/-! ## Numbers marked as hex -/

namespace Numeral

variable {b : Nat} {ds : List Char} {v : UInt64}

theorem isHexDigit_or_plus_of_unsigned64? (h : unsigned64? b ds = some v) :
    ∀ c ∈ ds, isHexDigit c ∨ c = '+' := by
  obtain ⟨n, hn, -⟩ := Option.map_eq_some_iff.1 h
  obtain ⟨digits, hds, hnat, -⟩ := exists_digits_of_below? hn
  intro c hc
  rcases hds with rfl | rfl
  · exact Or.inl (isHexDigit_of_natural? hnat c hc)
  · exact (List.mem_cons.1 hc).symm.imp_left (isHexDigit_of_natural? hnat c)

/-- The last character is a digit, with or without a sign in front. -/
theorem exists_last_of_unsigned64? (h : unsigned64? b ds = some v) :
    ∃ front d, ds = front ++ [d] ∧ isHexDigit d := by
  obtain ⟨n, hn, -⟩ := Option.map_eq_some_iff.1 h
  obtain ⟨digits, hds, hnat, -⟩ := exists_digits_of_below? hn
  obtain ⟨hne, -⟩ := natural?_eq_some_iff.1 hnat
  have hlast := isHexDigit_of_natural? hnat (digits.getLast hne) (List.getLast_mem hne)
  rcases hds with rfl | rfl
  · exact ⟨_, _, (List.dropLast_append_getLast hne).symm, hlast⟩
  · refine ⟨'+' :: digits.dropLast, _, ?_, hlast⟩
    rw [List.cons_append, List.dropLast_append_getLast hne]

theorem signed64?_eq_none_of_mem {c : Char} {cs : List Char} (hdigit : isHexDigit c = false)
    (hplus : c ≠ '+') (hminus : c ≠ '-') (h : c ∈ cs) : signed64? b cs = none := by
  have hnatural {ds : List Char} (hc : c ∈ ds) : natural? b ds = none := by
    rw [Option.eq_none_iff_forall_not_mem]
    intro n hn
    rw [isHexDigit_of_natural? hn c hc] at hdigit
    cases hdigit
  unfold signed64?
  split
  case h_1 ds =>
    rw [hnatural (List.mem_of_ne_of_mem hminus h)]
    rfl
  case h_2 =>
    cases hbelow : below? (Int64.size / 2) b cs with
    | none => rfl
    | some n =>
      obtain ⟨ds, hds, hn, -⟩ := exists_digits_of_below? hbelow
      have hc : c ∈ ds := by
        rcases hds with rfl | rfl
        · exact h
        · exact List.mem_of_ne_of_mem hplus h
      rw [hnatural hc] at hn
      cases hn

end Numeral

namespace Address

variable {cs ds : List Char} {v : UInt64}

/-- The digits that both readers find. -/
def knownDigits? (cs : List Char) : Option (List Char) :=
  ((Text.after? ['0', 'x'] cs).or (Text.after? ['0', 'X'] cs)).or (Text.before? ['h'] cs)

theorem hexDigits?_eq (cs : List Char) :
    hexDigits? cs = (knownDigits? cs).or (Text.before? ['H'] cs) := by
  rw [hexDigits?, knownDigits?, Option.or_assoc, Option.or_assoc]

theorem knownDigits?_cases (h : knownDigits? cs = some ds) :
    (∃ x, (x = 'x' ∨ x = 'X') ∧ cs = '0' :: x :: ds) ∨ cs = ds ++ ['h'] := by
  rw [knownDigits?, Option.or_eq_some_iff, Option.or_eq_some_iff] at h
  rcases h with (h | ⟨-, h⟩) | ⟨-, h⟩
  · exact Or.inl ⟨'x', Or.inl rfl, Text.eq_append_of_after? h⟩
  · exact Or.inl ⟨'X', Or.inr rfl, Text.eq_append_of_after? h⟩
  · exact Or.inr (Text.eq_append_of_before? h)

theorem hexDigits?_cases (h : hexDigits? cs = some ds) :
    (∃ x, (x = 'x' ∨ x = 'X') ∧ cs = '0' :: x :: ds) ∨
      ∃ mark, (mark = 'h' ∨ mark = 'H') ∧ cs = ds ++ [mark] := by
  rw [hexDigits?_eq, Option.or_eq_some_iff] at h
  rcases h with h | ⟨-, h⟩
  · exact (knownDigits?_cases h).imp_right fun heq => ⟨'h', Or.inl rfl, heq⟩
  · exact Or.inr ⟨'H', Or.inr rfl, Text.eq_append_of_before? h⟩

/-- The characters of a number marked as hex. -/
def isLiteralChar (c : Char) : Bool := c.isAlphanum || c = '+'

theorem isLiteralChar_of_isAlphanum {c : Char} (h : c.isAlphanum) : isLiteralChar c := by
  simp [isLiteralChar, h]

section HexLiteral

variable {t : List Char} (h : hexLiteral? t = some v)
include h

theorem isLiteralChar_of_hexLiteral? : ∀ c ∈ Text.trim t, isLiteralChar c := by
  obtain ⟨ds, hds, hv⟩ := Option.bind_eq_some_iff.1 h
  have hdigits : ∀ c ∈ ds, isLiteralChar c := by
    intro c hc
    rcases Numeral.isHexDigit_or_plus_of_unsigned64? hv c hc with hdigit | rfl
    · exact isLiteralChar_of_isAlphanum (Numeral.isAlphanum_of_isHexDigit hdigit)
    · rfl
  rcases hexDigits?_cases hds with ⟨x, hx, heq⟩ | ⟨mark, hmark, heq⟩
  · rw [heq]
    refine List.forall_mem_cons.2 ⟨rfl, List.forall_mem_cons.2 ⟨?_, hdigits⟩⟩
    rcases hx with rfl | rfl <;> rfl
  · rw [heq]
    refine List.forall_mem_append.2 ⟨hdigits, List.forall_mem_singleton.2 ?_⟩
    rcases hmark with rfl | rfl <;> rfl

theorem not_mem_trim_of_hexLiteral? {c : Char} (hc : isLiteralChar c = false) :
    c ∉ Text.trim t := by
  intro hmem
  rw [isLiteralChar_of_hexLiteral? h c hmem] at hc
  cases hc

/-- Around the number there are only blanks. -/
theorem not_mem_of_hexLiteral? {c : Char} (hblank : Text.isBlank c = false)
    (hc : isLiteralChar c = false) : c ∉ t :=
  fun hmem => not_mem_trim_of_hexLiteral? h hc (Text.mem_trim hmem hblank)

theorem not_isBlank_of_hexLiteral? : ∀ c ∈ Text.trim t, Text.isBlank c = false := by
  intro c hc
  have hchar := isLiteralChar_of_hexLiteral? h c hc
  simp only [isLiteralChar, Bool.or_eq_true, decide_eq_true_eq] at hchar
  rcases hchar with halpha | rfl
  · exact Text.not_isBlank_of_isAlphanum halpha
  · rfl

end HexLiteral

end Address

/-! ## The literal of a load -/

namespace Operand

variable {t : List Char} {v : UInt64}

theorem magnitude?_eq (cs : List Char) :
    magnitude? cs =
      (Address.knownDigits? cs).elim (Numeral.signed64? 10 cs) (Numeral.signed64? 16) := by
  rw [magnitude?, Address.knownDigits?]
  cases (Text.after? ['0', 'x'] cs).or (Text.after? ['0', 'X'] cs) with
  | some ds => rfl
  | none => cases Text.before? ['h'] cs <;> rfl

/-- A number that is marked by `H` is not read as a hex number, and its last letter is no decimal
digit. -/
theorem magnitude?_of_hexDigits? {cs ds : List Char} (h : Address.hexDigits? cs = some ds)
    (hv : Numeral.unsigned64? 16 ds = some v) :
    magnitude? cs = if cs.getLast? = some 'H' then none else Numeral.signed64? 16 ds := by
  rw [Address.hexDigits?_eq, Option.or_eq_some_iff] at h
  rw [magnitude?_eq]
  rcases h with hknown | ⟨hnone, hupper⟩
  · have hlast : cs.getLast? ≠ some 'H' := by
      obtain ⟨front, d, rfl, hd⟩ := Numeral.exists_last_of_unsigned64? hv
      have hne : some d ≠ some 'H' := by
        intro heq
        cases heq
        exact absurd hd (by decide)
      rcases Address.knownDigits?_cases hknown with ⟨x, -, rfl⟩ | rfl
      · rwa [← List.cons_append, ← List.cons_append, List.getLast?_concat]
      · rw [List.getLast?_concat]
        decide
    rw [hknown, if_neg hlast, Option.elim_some]
  · obtain rfl := Text.eq_append_of_before? hupper
    rw [hnone, List.getLast?_concat, if_pos rfl, Option.elim_none]
    exact Numeral.signed64?_eq_none_of_mem (c := 'H') rfl (by decide) (by decide) (by simp)

/-- A number marked as hex has no sign of an immediate in front. -/
theorem immediate?_of_hexLiteral? (h : Address.hexLiteral? t = some v) :
    immediate? t = magnitude? (Text.trim t) := by
  have hafter : Text.after? ['#'] (Text.trim t) = none :=
    Text.after?_of_not_mem (c := '#') (by simp) (Address.not_mem_trim_of_hexLiteral? h rfl)
  simp only [immediate?, hafter, Option.getD_none, Text.trim_trim]
  split
  case h_1 rest hrest =>
    have hminus : '-' ∉ Text.trim t := Address.not_mem_trim_of_hexLiteral? h rfl
    rw [hrest] at hminus
    exact absurd List.mem_cons_self hminus
  case h_2 => rfl

/-- The value leaves the sign bit free, and the number is not marked by `H`. -/
def Loadable (t : List Char) (v : UInt64) : Prop :=
  v.toNat < 2 ^ 63 ∧ (Text.trim t).getLast? ≠ some 'H'

instance (t : List Char) (v : UInt64) : Decidable (Loadable t v) :=
  inferInstanceAs (Decidable (v.toNat < 2 ^ 63 ∧ (Text.trim t).getLast? ≠ some 'H'))

theorem parse_equals (t : List Char) :
    parse ('=' :: t) = (immediate? t).elim .other fun n => .literal n.toUInt64 := by
  have himmediate : immediate? (Text.trimEnd t) = immediate? t := by
    simp only [immediate?, Text.trim_trimEnd]
  rw [parse, Text.trim_cons_of_not_isBlank (by decide)]
  simp only [himmediate]
  cases immediate? t <;> rfl

/-- **What a load makes of a literal** that a data line reads. -/
theorem parse_of_hexLiteral? (h : Address.hexLiteral? t = some v) :
    parse ('=' :: t) = if Loadable t v then .literal v else .other := by
  obtain ⟨ds, hds, hv⟩ := Option.bind_eq_some_iff.1 h
  rw [parse_equals, immediate?_of_hexLiteral? h, magnitude?_of_hexDigits? hds hv]
  by_cases hlast : (Text.trim t).getLast? = some 'H'
  · rw [if_pos hlast, if_neg fun hload => hload.2 hlast, Option.elim_none]
  · rw [if_neg hlast, Numeral.signed64?_of_unsigned64? hv]
    by_cases hsmall : v.toNat < 2 ^ 63
    · rw [if_pos hsmall, if_pos ⟨hsmall, hlast⟩, Option.elim_some, Int64.ofInt_eq_ofNat,
        Int64.toUInt64_ofNat', UInt64.ofNat_toNat]
    · rw [if_neg hsmall, if_neg fun hload => hsmall hload.1, Option.elim_none]

end Operand

/-! ## The load -/

/-- `LDR rd,=t` -/
def Instruction.loadLiteral (a : Address) (rd t : List Char) : Instruction :=
  ⟨a, ['L', 'D', 'R'], rd ++ ',' :: '=' :: t⟩

section Load

variable {rd t : List Char} {v : UInt64}

theorem Operand.split_loadLiteral (hrd : depthAfter? 0 rd = some 0)
    (h : Address.hexLiteral? t = some v) :
    split (rd ++ ',' :: '=' :: t) = [Text.trim rd, Text.trim ('=' :: t)] := by
  have hlevel : ∀ c ∈ '=' :: t, nesting c = 0 := by
    refine List.forall_mem_cons.2 ⟨rfl, fun c hc => ?_⟩
    have hne {d : Char} (hblank : Text.isBlank d = false) (hd : Address.isLiteralChar d = false) :
        c ≠ d :=
      fun heq => Address.not_mem_of_hexLiteral? h hblank hd (heq ▸ hc)
    simp [nesting, hne (d := '[') rfl rfl, hne (d := ']') rfl rfl, hne (d := '\x7b') rfl rfl,
      hne (d := '\x7d') rfl rfl]
  have hcomma : ',' ∉ '=' :: t := by
    rw [List.mem_cons, not_or]
    exact ⟨by decide, Address.not_mem_of_hexLiteral? h rfl rfl⟩
  have hdepth : depthAfter? 0 ('=' :: t) = some 0 := depthAfter?_level hlevel (Or.inr hcomma)
  have hlast := pieces_append hdepth [] []
  rw [List.append_nil] at hlast
  have hpieces : pieces 0 [] (rd ++ ',' :: '=' :: t) = [rd, '=' :: t] := by
    rw [pieces_append hrd, pieces, if_pos (by decide), hlast]
    simp [pieces]
  have hne : Text.trim ('=' :: t) ≠ [] := by
    rw [Text.trim_cons_of_not_isBlank (by decide)]
    exact List.cons_ne_nil _ _
  simp only [split, hpieces, List.map_cons, List.map_nil, List.getLast?_cons_cons,
    List.getLast?_singleton, Option.some.injEq, if_neg hne]

theorem Operand.register_trim (cs : List Char) : register (Text.trim cs) = register cs := by
  rw [register, register, Text.trim_trim]

theorem Operand.parse_trim (cs : List Char) : parse (Text.trim cs) = parse cs := by
  rw [parse, parse, Text.trim_trim]

/-- The load assigns the value if it understands the literal, and else nothing. -/
theorem Registers.assignment?_loadLiteral (hrd : Operand.depthAfter? 0 rd = some 0)
    (h : Address.hexLiteral? t = some v) (pool : Pool) (r : Registers) (a : Address) :
    r.assignment? pool (.loadLiteral a rd t) =
      if Operand.Loadable t v then some (Operand.register rd, v) else none := by
  have hsplit := Operand.split_loadLiteral hrd h
  have hdestination : (Instruction.loadLiteral a rd t).destination? = some (Text.trim rd) := by
    rw [Instruction.destination?, Instruction.loadLiteral, hsplit]
    rfl
  have hoperand : (Instruction.loadLiteral a rd t).operand =
      if Operand.Loadable t v then .literal v else .other := by
    have hsource : (Instruction.loadLiteral a rd t).source? = some (Text.trim ('=' :: t)) := by
      rw [Instruction.source?, Instruction.loadLiteral, hsplit]
      rfl
    rw [Instruction.operand_of_source? hsource, Operand.parse_trim, Operand.parse_of_hexLiteral? h]
  have hread : Access.ofMnemonic? (Instruction.loadLiteral a rd t).mnemonic = some .read := by
    show Access.ofMnemonic? ['L', 'D', 'R'] = some .read
    decide
  rw [assignment?, if_pos hread, hdestination, Option.bind_some, hoperand, Operand.register_trim]
  by_cases hload : Operand.Loadable t v
  · rw [if_pos hload, if_pos hload]
    rfl
  · rw [if_neg hload, if_neg hload]
    rfl

end Load

/-! ## The data line -/

/-- A line that has nothing but a number marked as hex. -/
def Line.ofLiteral (a : Address) (t : List Char) : List Char :=
  (Numeral.upperHex a.toNat).leftpad 8 '0' ++ ':' :: ' ' :: t

theorem Line.parse?_ofLiteral {t : List Char} {v : UInt64} (h : Address.hexLiteral? t = some v)
    (a : Address) :
    parse? (ofLiteral a t) = some (.data a v) := by
  have hdigits := Numeral.natural?_leftpad (by decide) (Numeral.natural?_upperHex a.toNat) 8
  have hcomment : (' ' :: t).takeWhile (· ≠ ';') = ' ' :: t := by
    refine List.takeWhile_eq_self_iff.2 fun c hc => decide_eq_true ?_
    rintro rfl
    exact Address.not_mem_of_hexLiteral? h rfl rfl (List.mem_of_ne_of_mem (by decide) hc)
  have hne : Text.trim t ≠ [] := by
    intro hnil
    rw [Address.hexLiteral?, hnil] at h
    cases h
  have hdatum : datum? (Text.trim t) [] = some v := by
    rw [datum?_nil, Address.hexLiteral?, Text.trim_trim, ← Address.hexLiteral?, h, Option.some_or]
  rw [parse?, ofLiteral, splitAddress?_hex hdigits a.toNat_lt, UInt64.ofNat_toNat]
  show ofText? a (Text.trim ((' ' :: t).takeWhile (· ≠ ';'))) = _
  rw [hcomment, Text.trim_cons_of_isBlank (by decide), ofText?_eq_ofWords?,
    splitText_of_forall (Address.not_isBlank_of_hexLiteral? h), ofWords?_of_datum? a hne hdatum]

/-! ## Both readers -/

/-- **A load understands a literal of inline data exactly if it is loadable.** A data line stores
the value in any case. The load makes it known if it is loadable, and otherwise leaves everything as
it was. -/
theorem literal_load_iff (t : List Char) (v : UInt64) (h : Address.hexLiteral? t = some v) :
    (∀ a, Line.parse? (Line.ofLiteral a t) = some (.data a v)) ∧
    (Operand.parse ('=' :: t) = .literal v ↔ Operand.Loadable t v) ∧
    ∀ (pool : Pool) (r : Registers) (a : Address) (rd : List Char),
      Operand.depthAfter? 0 rd = some 0 →
      (Operand.Loadable t v → (r.observe pool (.loadLiteral a rd t)).base? rd = some v) ∧
      (¬ Operand.Loadable t v → r.observe pool (.loadLiteral a rd t) = r) := by
  refine ⟨Line.parse?_ofLiteral h, ?_, ?_⟩
  · rw [Operand.parse_of_hexLiteral? h]
    by_cases hload : Operand.Loadable t v
    · simp [hload]
    · simp [hload]
  · intro pool r a rd hrd
    rw [Registers.observe_eq_assign, Registers.assignment?_loadLiteral hrd h]
    constructor
    · intro hload
      rw [if_pos hload]
      exact r.base?_set rd v
    · intro hload
      rw [if_neg hload]
      rfl

/-- A literal that is understood takes the place of what the register held. -/
theorem literal_load_fresh :
    Address.hexLiteral? "1Fh".toList = some 0x1F ∧
      ((⟨[(['R', '0'], 0x1000)]⟩ : Registers).observe (fun _ => none)
        (.loadLiteral 0x8000 ['R', '0'] "1Fh".toList)).base? ['R', '0'] = some 0x1F := by
  have h : Address.hexLiteral? "1Fh".toList = some 0x1F := by decide
  obtain ⟨-, -, hload⟩ := literal_load_iff _ _ h
  exact ⟨h,
    (hload (fun _ => none) ⟨[(['R', '0'], 0x1000)]⟩ 0x8000 ['R', '0'] (by decide)).1 (by decide)⟩

/-- Literals that data lines read and loads do not, by their mark or by their size. The register is
still taken to hold what it held before. -/
theorem literal_load_stale :
    (Address.hexLiteral? "1FH".toList = some 0x1F ∧ Operand.parse "=1FH".toList = .other ∧
      ((⟨[(['R', '0'], 0x1000)]⟩ : Registers).observe (fun _ => none)
        (.loadLiteral 0x8000 ['R', '0'] "1FH".toList)).base? ['R', '0'] = some 0x1000) ∧
    Address.hexLiteral? "0x8000000000000000".toList = some 0x8000000000000000 ∧
      Operand.parse "=0x8000000000000000".toList = .other ∧
      ((⟨[(['R', '0'], 0x1000)]⟩ : Registers).observe (fun _ => none)
        (.loadLiteral 0x8000 ['R', '0'] "0x8000000000000000".toList)).base? ['R', '0'] =
          some 0x1000 := by
  decide

end FirmScan
