import FirmScan.Proofs.Listing.Line

/-!
# Decorated lines are read back

A line is printed with or without a segment name before its address, a column of encoded bytes
before its text and a comment behind it. Whatever the decoration, what is read is the instruction or
the datum that was printed.

**Decorations** (`Decoration`). A segment name is any text without a colon and a comment is any text
at all: the first colon before a blank is the one behind the address, and the first semicolon behind
it opens the comment.

**Texts.** An instruction is a word and its operands (`MnemonicWord`, `OperandText`). A datum is a
number marked as hex, alone or behind a directive, or a bare word of eight digits (`IsDatum`).

**Theorem (`parse?_decorated`).** Both are read back under every decoration.

The column of bytes is where reading is ambiguous. A first word that could be one is dropped if a
text follows it, and the directive `dd` could be one. `Decoration.parse?_line_of` says what has to
be shown: the text is read alike whether its first word is looked at as a column or not.
-/

namespace FirmScan.Line

/-! ## Words -/

/-- Encoded bytes, two hex digits for each. -/
structure IsBytes (cs : List Char) : Prop where
  ne_nil : cs ≠ []
  even : cs.length % 2 = 0
  digits : ∀ c ∈ cs, Numeral.isHexDigit c

theorem isByteColumn_iff {cs : List Char} : isByteColumn cs = true ↔ IsBytes cs := by
  simp only [isByteColumn, Bool.and_eq_true, decide_eq_true_eq, List.all_eq_true]
  constructor
  · rintro ⟨⟨hlength, heven⟩, hdigits⟩
    exact ⟨List.ne_nil_of_length_pos (by omega), heven, hdigits⟩
  · rintro ⟨hne, heven, hdigits⟩
    have := List.length_pos_iff.2 hne
    exact ⟨⟨by omega, heven⟩, hdigits⟩

theorem isInk_of_isAlphanum {c : Char} (h : c.isAlphanum) : isInk c :=
  isInk_iff.2 ⟨Text.not_isBlank_of_isAlphanum h, Text.ne_of_isAlphanum h rfl⟩

section Ink

variable {word text : List Char}

theorem not_isBlank_of_isInk (h : ∀ c ∈ word, isInk c) : ∀ c ∈ word, Text.isBlank c = false :=
  fun c hc => (isInk_iff.1 (h c hc)).1

theorem semicolon_not_mem_of_isInk (h : ∀ c ∈ word, isInk c) : ';' ∉ word :=
  fun hmem => (isInk_iff.1 (h _ hmem)).2 rfl

theorem tight_of_isInk (hne : word ≠ []) (h : ∀ c ∈ word, isInk c) : Text.Tight word :=
  .of_forall hne (not_isBlank_of_isInk h)

/-- A word and a text behind it. -/
theorem tight_words (hne : word ≠ []) (h : ∀ c ∈ word, isInk c) (htext : Text.Tight text) :
    Text.Tight (word ++ ' ' :: text) :=
  (tight_of_isInk hne h).append [' '] htext

theorem semicolon_not_mem_words (h : ∀ c ∈ word, isInk c) (htext : ';' ∉ text) :
    ';' ∉ word ++ ' ' :: text := by
  simp only [List.mem_append, List.mem_cons, not_or]
  exact ⟨semicolon_not_mem_of_isInk h, by decide, htext⟩

theorem firstWord_words (h : ∀ c ∈ word, isInk c) (htext : Text.Tight text) :
    Text.firstWord (word ++ ' ' :: text) = (word, text) := by
  rw [Text.firstWord_append (not_isBlank_of_isInk h) (by decide), htext.trim]

end Ink

theorem IsBytes.isInk {cs : List Char} (h : IsBytes cs) : ∀ c ∈ cs, isInk c := fun c hc =>
  isInk_of_isAlphanum (Numeral.isAlphanum_of_isHexDigit (h.digits c hc))

/-- The words that announce a datum. -/
def directives : List String :=
  [".word", ".long", ".4byte", ".int", "dcd", "dcdu", "dd", "undefined4", "addr"]

/-- A word that announces a datum, in any case. -/
def IsDirective (word : List Char) : Prop := String.ofList (Text.lower word) ∈ directives

instance (word : List Char) : Decidable (IsDirective word) :=
  inferInstanceAs (Decidable (String.ofList (Text.lower word) ∈ directives))

theorem contains_dataDirectives_iff {word : List Char} :
    dataDirectives.contains (Text.lower word) = true ↔ IsDirective word := by
  have hmap : dataDirectives = directives.map String.toList := rfl
  rw [List.contains_iff_mem, hmap, List.mem_map, IsDirective]
  constructor
  · rintro ⟨s, hs, heq⟩
    rwa [← heq, String.ofList_toList]
  · intro h
    exact ⟨_, h, String.toList_ofList⟩

/-- Only letters change in lower case, so a blank or a semicolon would still be there. -/
theorem isInk_of_toLower {c : Char} (h : isInk c.toLower) : isInk c := by
  by_cases hc : c.isAlphanum
  · exact isInk_of_isAlphanum hc
  · have hupper : ¬ (65 ≤ c.toNat ∧ c.toNat ≤ 90) :=
      fun hrange => hc (Text.isAlphanum_iff.2 (Or.inr (Or.inl hrange)))
    rwa [Text.toLower_of_not_upper hupper] at h

namespace IsDirective

variable {word : List Char}

theorem ne_nil (h : IsDirective word) : word ≠ [] := by
  rintro rfl
  exact absurd h (by decide)

theorem isInk (h : IsDirective word) : ∀ c ∈ word, isInk c := by
  have hdirectives : directives.all (·.toList.all Line.isInk) = true := rfl
  intro c hc
  refine isInk_of_toLower (List.all_eq_true.1 (List.all_eq_true.1 hdirectives _ h) _ ?_)
  rw [String.toList_ofList]
  exact List.mem_map_of_mem hc

end IsDirective

/-! ## Instructions -/

/-- The first word of an instruction. -/
structure MnemonicWord where
  chars : List Char
  ne_nil : chars ≠ []
  ink : ∀ c ∈ chars, isInk c
  not_bytes : ¬ IsBytes chars
  not_directive : ¬ IsDirective chars

/-- The operands of an instruction, with any blanks between them. -/
structure OperandText where
  chars : List Char
  tight : Text.Tight chars
  no_comment : ';' ∉ chars

/-- The mnemonic is the word in upper case, without its width mark. -/
inductive IsMnemonic (word : List Char) : List Char → Prop
  | wide {mnemonic : List Char} (h : Text.upper word = mnemonic ++ ['.', 'W']) :
      IsMnemonic word mnemonic
  | narrow {mnemonic : List Char} (h : Text.upper word = mnemonic ++ ['.', 'N']) :
      IsMnemonic word mnemonic
  | plain (hwide : ¬ ['.', 'W'] <:+ Text.upper word) (hnarrow : ¬ ['.', 'N'] <:+ Text.upper word) :
      IsMnemonic word (Text.upper word)

theorem isMnemonic_mnemonicOf (word : List Char) : IsMnemonic word (mnemonicOf word) := by
  by_cases hwide : ['.', 'W'] <:+ Text.upper word
  · obtain ⟨mnemonic, heq⟩ := hwide
    have hof : mnemonicOf word = mnemonic := by
      simp only [mnemonicOf, ← heq, Text.before?_append, Option.some_or, Option.getD_some]
    rw [hof]
    exact .wide heq.symm
  · by_cases hnarrow : ['.', 'N'] <:+ Text.upper word
    · obtain ⟨mnemonic, heq⟩ := hnarrow
      have hof : mnemonicOf word = mnemonic := by
        simp only [mnemonicOf, Text.before?_eq_none hwide, Option.none_or]
        simp only [← heq, Text.before?_append, Option.getD_some]
      rw [hof]
      exact .narrow heq.symm
    · have hof : mnemonicOf word = Text.upper word := by
        simp only [mnemonicOf, Text.before?_eq_none hwide, Text.before?_eq_none hnarrow,
          Option.or_none, Option.getD_none]
      rw [hof]
      exact .plain hwide hnarrow

/-! ## Data -/

/-- The text spells the value as a number marked as hex, by `0x` in front or by `h` behind. -/
inductive IsHexLiteral (v : UInt64) : List Char → Prop
  | front {x : Char} {ds : List Char} (hx : x = 'x' ∨ x = 'X') (h : Numeral.IsHex ds v.toNat) :
      IsHexLiteral v ('0' :: x :: ds)
  | behind {mark : Char} {ds : List Char} (hmark : mark = 'h' ∨ mark = 'H')
      (h : Numeral.IsHex ds v.toNat) :
      IsHexLiteral v (ds ++ [mark])

/-- The text prints a datum. -/
inductive IsDatum (v : UInt64) : List Char → Prop
  | literal {cs : List Char} (h : IsHexLiteral v cs) : IsDatum v cs
  | directive {word cs : List Char} (hword : IsDirective word) (h : IsHexLiteral v cs) :
      IsDatum v (word ++ ' ' :: cs)
  | bare {ds : List Char} (hv : v.toNat < 2 ^ 32)
      (h : Text.upper ds = (Numeral.upperHex v.toNat).leftpad 8 '0') : IsDatum v ds

theorem isInk_of_natural? {ds : List Char} {n : Nat} (h : Numeral.natural? 16 ds = some n) :
    ∀ c ∈ ds, isInk c := fun c hc => isInk_of_isAlphanum (Numeral.isAlphanum_of_natural? h c hc)

theorem unsigned64?_of_isHex {ds : List Char} {v : UInt64} (h : Numeral.IsHex ds v.toNat) :
    Numeral.unsigned64? 16 ds = some v := by
  rw [Numeral.unsigned64?_of_natural? h.natural? v.toNat_lt, UInt64.ofNat_toNat]

namespace IsHexLiteral

variable {v : UInt64} {cs : List Char}

theorem isAlphanum (h : IsHexLiteral v cs) : ∀ c ∈ cs, c.isAlphanum := by
  cases h with
  | front hx h =>
    refine List.forall_mem_cons.2
      ⟨rfl, List.forall_mem_cons.2 ⟨?_, Numeral.isAlphanum_of_natural? h.natural?⟩⟩
    rcases hx with rfl | rfl <;> rfl
  | behind hmark h =>
    intro c hc
    rcases List.mem_append.1 hc with hc | hc
    · exact Numeral.isAlphanum_of_natural? h.natural? c hc
    · rw [List.mem_singleton.1 hc]
      rcases hmark with rfl | rfl <;> rfl

theorem isInk (h : IsHexLiteral v cs) : ∀ c ∈ cs, isInk c := fun c hc =>
  isInk_of_isAlphanum (h.isAlphanum c hc)

theorem ne_nil (h : IsHexLiteral v cs) : cs ≠ [] := by
  cases h <;> simp

theorem hexDigits? (h : IsHexLiteral v cs) :
    ∃ ds, Address.hexDigits? cs = some ds ∧ Numeral.IsHex ds v.toNat := by
  cases h with
  | @front x ds hx h =>
    refine ⟨ds, ?_, h⟩
    rcases hx with rfl | rfl <;> rfl
  | @behind mark ds hmark h =>
    refine ⟨ds, ?_, h⟩
    -- no mark stands in front, for `x` is neither a digit nor the mark behind
    have hfront {x : Char} (hx : Numeral.isHexDigit x = false) (hne : x ≠ mark) :
        Text.after? ['0', x] (ds ++ [mark]) = none := by
      refine Text.after?_of_not_mem (c := x) (by simp) fun hmem => ?_
      rcases List.mem_append.1 hmem with hmem | hmem
      · exact not_mem_of_natural? h.natural? hx hmem
      · exact hne (List.mem_singleton.1 hmem)
    rcases hmark with rfl | rfl
    · rw [Address.hexDigits?, hfront rfl (by decide), hfront rfl (by decide), Text.before?_append]
      rfl
    · have hlower : Text.before? ['h'] (ds ++ ['H']) = none := by
        refine Text.before?_eq_none fun ⟨rest, hrest⟩ => ?_
        exact absurd (List.append_inj_right' hrest rfl) (by decide)
      rw [Address.hexDigits?, hfront rfl (by decide), hfront rfl (by decide), hlower,
        Text.before?_append]
      rfl

/-- **Numbers marked as hex are read back.** -/
theorem hexLiteral? (h : IsHexLiteral v cs) : Address.hexLiteral? cs = some v := by
  obtain ⟨ds, hds, hhex⟩ := h.hexDigits?
  have htrim : Text.trim cs = cs := Text.trim_of_forall (not_isBlank_of_isInk h.isInk)
  rw [Address.hexLiteral?, htrim, hds, Option.bind_some, unsigned64?_of_isHex hhex]

end IsHexLiteral

/-- Digits alone carry no mark. -/
theorem hexDigits?_eq_none {ds : List Char} (h : ∀ c ∈ ds, Numeral.isHexDigit c) :
    Address.hexDigits? ds = none := by
  have hmem {c : Char} (hc : Numeral.isHexDigit c = false) : c ∉ ds := by
    intro hmem
    rw [h c hmem] at hc
    cases hc
  have hafter {x : Char} (hx : Numeral.isHexDigit x = false) : Text.after? ['0', x] ds = none :=
    Text.after?_of_not_mem (by simp) (hmem hx)
  have hbefore {x : Char} (hx : Numeral.isHexDigit x = false) : Text.before? [x] ds = none :=
    Text.before?_of_not_mem (by simp) (hmem hx)
  rw [Address.hexDigits?, hafter rfl, hafter rfl, hbefore rfl, hbefore rfl]
  rfl

/-- Digits alone are not marked as hex. -/
theorem hexLiteral?_eq_none {ds : List Char} {n : Nat} (h : Numeral.natural? 16 ds = some n) :
    Address.hexLiteral? ds = none := by
  rw [Address.hexLiteral?, Text.trim_of_forall (not_isBlank_of_natural? h),
    hexDigits?_eq_none (Numeral.isHexDigit_of_natural? h), Option.bind_none]

/-! ## The text of a line -/

/-- The line of a first word and its operands. -/
def ofWords? (address : Address) (words : List Char × List Char) : Option Line :=
  if words.1.isEmpty then none
  else match datum? words.1 words.2 with
    | some value => some (.data address value)
    | none =>
      if words.2.isEmpty && isByteColumn words.1 then none
      else some (.instruction ⟨address, mnemonicOf words.1, words.2⟩)

theorem ofText?_eq_ofWords? (a : Address) (text : List Char) :
    ofText? a text = ofWords? a (splitText text) := rfl

section Words

variable {word operands : List Char} {v : UInt64}

theorem ofWords?_of_datum? (a : Address) (hne : word ≠ []) (h : datum? word operands = some v) :
    ofWords? a (word, operands) = some (.data a v) := by
  simp only [ofWords?, List.isEmpty_eq_false_iff.2 hne, Bool.false_eq_true, if_false, h]

theorem ofWords?_instruction (a : Address) (m : MnemonicWord) (o : OperandText) :
    ofWords? a (m.chars, o.chars) = some (.instruction ⟨a, mnemonicOf m.chars, o.chars⟩) := by
  have hdirective : dataDirectives.contains (Text.lower m.chars) = false :=
    Bool.eq_false_iff.2 (mt contains_dataDirectives_iff.1 m.not_directive)
  simp only [ofWords?, datum?, hdirective, List.isEmpty_eq_false_iff.2 m.ne_nil,
    List.isEmpty_eq_false_iff.2 o.tight.ne_nil, Bool.false_and, Bool.false_eq_true, if_false]

theorem datum?_nil (word : List Char) :
    datum? word [] = (Address.hexLiteral? word).or (bareWord? word) := rfl

theorem ofWords?_literal (a : Address) (h : IsHexLiteral v word) :
    ofWords? a (word, []) = some (.data a v) := by
  refine ofWords?_of_datum? a h.ne_nil ?_
  rw [datum?_nil, h.hexLiteral?, Option.some_or]

theorem ofWords?_directive (a : Address) (hword : IsDirective word) (h : IsHexLiteral v operands) :
    ofWords? a (word, operands) = some (.data a v) := by
  refine ofWords?_of_datum? a hword.ne_nil ?_
  have hcomma : operands.contains ',' = false := by
    rw [Bool.eq_false_iff, ne_eq, List.contains_iff_mem]
    intro hmem
    exact absurd (h.isAlphanum _ hmem) (by decide)
  simp only [datum?, List.isEmpty_eq_false_iff.2 h.ne_nil, contains_dataDirectives_iff.2 hword,
    hcomma, Bool.not_false, Bool.and_self, Bool.false_eq_true, if_false, if_true, h.hexLiteral?]

theorem ofWords?_bare (a : Address) (hv : v.toNat < 2 ^ 32)
    (h : Text.upper word = (Numeral.upperHex v.toNat).leftpad 8 '0') :
    ofWords? a (word, []) = some (.data a v) := by
  have hhex : Numeral.IsHex word v.toNat := ⟨8, h⟩
  have hdigits := Numeral.isHexDigit_of_natural? hhex.natural?
  have hlength : word.length = 8 := by
    have hshort : (Nat.toDigits 16 v.toNat).length ≤ 8 :=
      (Nat.length_toDigits_le_iff (by decide) (by decide)).2 hv
    have := congrArg List.length h
    simp only [Text.upper, Numeral.upperHex, List.length_map, List.length_leftpad] at this
    omega
  refine ofWords?_of_datum? a (List.ne_nil_of_length_pos (by omega)) ?_
  rw [datum?_nil, hexLiteral?_eq_none hhex.natural?, Option.none_or, bareWord?,
    if_pos (by simpa [hlength] using hdigits), unsigned64?_of_isHex hhex]

end Words

section Split

variable {word text : List Char}

/-- A column of bytes is dropped if a text follows it. -/
theorem splitText_bytes (hword : IsBytes word) (htext : Text.Tight text) :
    splitText (word ++ ' ' :: text) = Text.firstWord text := by
  simp only [splitText, firstWord_words hword.isInk htext, isByteColumn_iff.2 hword,
    List.isEmpty_eq_false_iff.2 htext.ne_nil, Bool.not_false, Bool.and_self, if_true]

theorem splitText_of_not_bytes (h : ¬ IsBytes (Text.firstWord text).1) :
    splitText text = Text.firstWord text := by
  simp only [splitText, Bool.eq_false_iff.2 (mt isByteColumn_iff.1 h), Bool.false_and,
    Bool.false_eq_true, if_false]

theorem splitText_of_forall (h : ∀ c ∈ text, Text.isBlank c = false) :
    splitText text = (text, []) := by
  simp only [splitText, Text.firstWord_of_forall h, List.isEmpty_nil, Bool.not_true, Bool.and_false,
    Bool.false_eq_true, if_false]

end Split

/-! ## Decorations -/

/-- What may stand around the address and the text of a line. -/
structure Decoration where
  segment : Option (List Char)
  bytes : Option (List Char)
  comment : Option (List Char)
  segment_plain : ∀ name ∈ segment, ':' ∉ name
  bytes_encoded : ∀ column ∈ bytes, IsBytes column

namespace Decoration

def front (d : Decoration) : List Char := d.segment.elim [] (· ++ [':'])

def column (d : Decoration) : List Char := d.bytes.elim [] (· ++ [' '])

def back (d : Decoration) : List Char := d.comment.elim [] ([' ', ';'] ++ ·)

/-- The printed line. -/
def line (d : Decoration) (a : Address) (text : List Char) : List Char :=
  d.front ++ ((Numeral.upperHex a.toNat).leftpad 8 '0' ++ ':' :: ' ' ::
    (d.column ++ text ++ d.back))

variable (d : Decoration)

/-- **The address.** The colon behind the segment is passed over, for a digit follows it. -/
theorem splitAddress?_front (a : Address) (rest : List Char) :
    splitAddress? [] (d.front ++ ((Numeral.upperHex a.toNat).leftpad 8 '0' ++ ':' :: ' ' :: rest)) =
      some (a, ' ' :: rest) := by
  have hdigits := Numeral.natural?_leftpad (by decide) (Numeral.natural?_upperHex a.toNat) 8
  generalize (Numeral.upperHex a.toNat).leftpad 8 '0' = ds at hdigits
  cases hsegment : d.segment with
  | none =>
    rw [front, hsegment, Option.elim_none, List.nil_append, splitAddress?_hex hdigits a.toNat_lt,
      UInt64.ofNat_toNat]
  | some name =>
    have hname : ':' ∉ name := d.segment_plain name hsegment
    rw [front, hsegment, Option.elim_some, List.append_assoc, List.singleton_append,
      splitAddress?_append hname, splitAddress?_colon hdigits, splitAddress?]
    have hseen : (ds.reverse ++ ':' :: (name.reverse ++ [])).reverse = name ++ ':' :: ds := by simp
    rw [hseen, addressIn?_segment hdigits a.toNat_lt, UInt64.ofNat_toNat]
    rfl

/-- **The comment.** What is left of the line without its comment. -/
theorem trim_takeWhile_back {text : List Char} (h : ';' ∉ text) :
    Text.trim ((' ' :: (text ++ d.back)).takeWhile (· ≠ ';')) = Text.trim text := by
  have htext : ∀ c ∈ ' ' :: text, decide (c ≠ ';') = true := by
    refine fun c hc => decide_eq_true ?_
    rintro rfl
    exact h (List.mem_of_ne_of_mem (by decide) hc)
  rw [← List.cons_append, List.takeWhile_append_of_pos htext]
  cases hcomment : d.comment with
  | none =>
    rw [back, hcomment]
    show Text.trim (' ' :: text ++ []) = _
    rw [List.append_nil, Text.trim_cons_of_isBlank (by decide)]
  | some comment =>
    rw [back, hcomment]
    show Text.trim (' ' :: text ++ [' ']) = _
    rw [Text.trim_concat_of_isBlank (by decide), Text.trim_cons_of_isBlank (by decide)]

/-- **The column.** A line is read as its text is read, whether or not the first word of the text
would do for a column. -/
theorem parse?_line_of {a : Address} {text : List Char} {x : Option Line} (htext : Text.Tight text)
    (hcomment : ';' ∉ text) (hfirst : ofWords? a (Text.firstWord text) = x)
    (hsplit : ofWords? a (splitText text) = x) : parse? (d.line a text) = x := by
  rw [parse?, line, splitAddress?_front]
  show ofText? a (Text.trim ((' ' :: (d.column ++ text ++ d.back)).takeWhile (· ≠ ';'))) = x
  cases hbytes : d.bytes with
  | none =>
    rw [column, hbytes, Option.elim_none, List.nil_append, d.trim_takeWhile_back hcomment,
      htext.trim, ofText?_eq_ofWords?, hsplit]
  | some bytes =>
    have hencoded : IsBytes bytes := d.bytes_encoded bytes hbytes
    have hcolumn : d.column ++ text = bytes ++ ' ' :: text := by
      rw [column, hbytes, Option.elim_some, List.append_assoc, List.singleton_append]
    rw [hcolumn, d.trim_takeWhile_back (semicolon_not_mem_words hencoded.isInk hcomment),
      (tight_words hencoded.ne_nil hencoded.isInk htext).trim, ofText?_eq_ofWords?,
      splitText_bytes hencoded htext, hfirst]

/-- A text of one word is no column, for nothing follows it. -/
theorem parse?_line_word {a : Address} {word : List Char} {x : Option Line} (hne : word ≠ [])
    (hword : ∀ c ∈ word, isInk c) (h : ofWords? a (word, []) = x) : parse? (d.line a word) = x := by
  have hblank := not_isBlank_of_isInk hword
  refine d.parse?_line_of (tight_of_isInk hne hword) (semicolon_not_mem_of_isInk hword) ?_ ?_
  · rw [Text.firstWord_of_forall hblank, h]
  · rw [splitText_of_forall hblank, h]

theorem parse?_line_instruction (a : Address) (m : MnemonicWord) (o : OperandText) :
    parse? (d.line a (m.chars ++ ' ' :: o.chars)) =
      some (.instruction ⟨a, mnemonicOf m.chars, o.chars⟩) := by
  have hfirst := firstWord_words m.ink o.tight
  have hbytes : ¬ IsBytes (Text.firstWord (m.chars ++ ' ' :: o.chars)).1 := by
    rw [hfirst]
    exact m.not_bytes
  refine d.parse?_line_of (tight_words m.ne_nil m.ink o.tight)
    (semicolon_not_mem_words m.ink o.no_comment)
    ?_ ?_
  · rw [hfirst, ofWords?_instruction]
  · rw [splitText_of_not_bytes hbytes, hfirst, ofWords?_instruction]

/-- A directive that would do for a column leaves the number to stand alone, and it has the same
value. -/
theorem parse?_line_directive (a : Address) {word literal : List Char} {v : UInt64}
    (hword : IsDirective word) (h : IsHexLiteral v literal) :
    parse? (d.line a (word ++ ' ' :: literal)) = some (.data a v) := by
  have htight : Text.Tight literal := tight_of_isInk h.ne_nil h.isInk
  have hfirst := firstWord_words hword.isInk htight
  refine d.parse?_line_of (tight_words hword.ne_nil hword.isInk htight)
    (semicolon_not_mem_words hword.isInk (semicolon_not_mem_of_isInk h.isInk)) ?_ ?_
  · rw [hfirst, ofWords?_directive a hword h]
  · by_cases hbytes : IsBytes word
    · rw [splitText_bytes hbytes htight, Text.firstWord_of_forall (not_isBlank_of_isInk h.isInk),
        ofWords?_literal a h]
    · rw [splitText_of_not_bytes (by rwa [hfirst]), hfirst, ofWords?_directive a hword h]

end Decoration

/-- **Decorated lines are read back.** -/
theorem parse?_decorated (d : Decoration) (a : Address) :
    (∀ (m : MnemonicWord) (o : OperandText), ∃ mnemonic, IsMnemonic m.chars mnemonic ∧
      parse? (d.line a (m.chars ++ ' ' :: o.chars)) = some (.instruction ⟨a, mnemonic, o.chars⟩)) ∧
    ∀ (v : UInt64) (text : List Char), IsDatum v text →
      parse? (d.line a text) = some (.data a v) := by
  constructor
  · intro m o
    exact ⟨_, isMnemonic_mnemonicOf m.chars, d.parse?_line_instruction a m o⟩
  · intro v text h
    cases h with
    | literal h => exact d.parse?_line_word h.ne_nil h.isInk (ofWords?_literal a h)
    | directive hword h => exact d.parse?_line_directive a hword h
    | bare hv h =>
      have hhex : Numeral.IsHex text v.toNat := ⟨8, h⟩
      obtain ⟨hne, -⟩ := Numeral.natural?_eq_some_iff.1 hhex.natural?
      exact d.parse?_line_word hne (isInk_of_natural? hhex.natural?) (ofWords?_bare a hv h)

-- the directive would do for a column of one byte, and the comment has a colon of its own
example : parse? "flash:00001000: DD 0x20 ;at: 4".toList = some (.data 0x1000 0x20) := by decide

end FirmScan.Line
