import FirmScan.Proofs.Listing.Line

/-!
# The case of letters does not matter

A line holds letters in many places: the mark of its address, the digits, the mark of a datum in
front or behind, the directive, the mnemonic and its width. Each of them is read in either case, by
a rule of its own.

**Folding** (`parse?_lower`). A line that is folded to lower case is read as the line itself, with
its operands folded. This is shown step by step: each step of reading gives for the folded text the
folded outcome. Steps that ask one question of each character rest on `Text.CaseBlind`, and the
marks on `Text.BothCases`.

**Theorem (`parse?_ignores_case`).** Two lines that differ in case only are read alike.
-/

namespace FirmScan

/-! ## Marks -/

namespace Text

/-- The two spellings of a mark, of which the first is in lower case. -/
def BothCases (mark mark' : List Char) : Prop := ∀ cs, lower cs = mark ↔ cs = mark ∨ cs = mark'

theorem after?_or {mark mark' : List Char} (hlength : mark'.length = mark.length) (cs : List Char) :
    (after? mark cs).or (after? mark' cs) =
      if mark <+: cs ∨ mark' <+: cs then some (cs.drop mark.length) else none := by
  by_cases h : mark <+: cs
  · simp [after?, h]
  · simp [after?, h, hlength]

theorem before?_or {mark mark' : List Char} (hlength : mark'.length = mark.length)
    (cs : List Char) :
    (before? mark cs).or (before? mark' cs) =
      if mark <:+ cs ∨ mark' <:+ cs then some (cs.take (cs.length - mark.length)) else none := by
  by_cases h : mark <:+ cs
  · simp [before?, h]
  · simp [before?, h, hlength]

namespace BothCases

variable {mark mark' : List Char} (h : BothCases mark mark')
include h

theorem length_eq : mark'.length = mark.length := by
  rw [← (h mark').2 (Or.inr rfl), lower, List.length_map]

/-- What folds to the mark is one of its spellings. -/
theorem exists_iff {P : List Char → Prop} :
    (∃ cs, P cs ∧ mark = cs.map Char.toLower) ↔ P mark ∨ P mark' := by
  constructor
  · rintro ⟨cs, hcs, heq⟩
    rcases (h cs).1 heq.symm with rfl | rfl
    · exact Or.inl hcs
    · exact Or.inr hcs
  · rintro (hmark | hmark)
    · exact ⟨mark, hmark, ((h mark).2 (Or.inl rfl)).symm⟩
    · exact ⟨mark', hmark, ((h mark').2 (Or.inr rfl)).symm⟩

theorem prefix_lower_iff (cs : List Char) : mark <+: lower cs ↔ mark <+: cs ∨ mark' <+: cs := by
  rw [lower, List.prefix_map_iff, h.exists_iff]

theorem suffix_lower_iff (cs : List Char) : mark <:+ lower cs ↔ mark <:+ cs ∨ mark' <:+ cs := by
  rw [lower, List.suffix_map_iff, h.exists_iff]

/-- What follows a mark, in a folded text and in the text itself. -/
theorem after?_lower (cs : List Char) :
    (after? mark (lower cs)).or (after? mark' (lower cs)) =
      ((after? mark cs).or (after? mark' cs)).map lower := by
  rw [after?_or h.length_eq, after?_or h.length_eq]
  simp only [← h.prefix_lower_iff, lower_lower]
  split_ifs
  · rw [Option.map_some, lower, ← List.map_drop, lower]
  · rfl

/-- What stands before a mark, in a folded text and in the text itself. -/
theorem before?_lower (cs : List Char) :
    (before? mark (lower cs)).or (before? mark' (lower cs)) =
      ((before? mark cs).or (before? mark' cs)).map lower := by
  rw [before?_or h.length_eq, before?_or h.length_eq]
  simp only [← h.suffix_lower_iff, lower_lower]
  split_ifs
  · rw [Option.map_some, lower, List.length_map, ← List.map_take, lower]
  · rfl

end BothCases

theorem bothCases_zeroX : BothCases ['0', 'x'] ['0', 'X'] := by
  intro cs
  rcases cs with _ | ⟨c, _ | ⟨d, _ | ⟨e, cs⟩⟩⟩
  · simp [lower]
  · simp [lower]
  · have hletter : d.toLower = 'x' ↔ d = 'x' ∨ d = 'X' := toLower_eq_letter_iff rfl
    simp [lower, toLower_eq_iff, hletter, and_or_left]
  · simp [lower]

theorem bothCases_h : BothCases ['h'] ['H'] := by
  intro cs
  rcases cs with _ | ⟨c, _ | ⟨d, cs⟩⟩
  · simp [lower]
  · have hletter : c.toLower = 'h' ↔ c = 'h' ∨ c = 'H' := toLower_eq_letter_iff rfl
    simp [lower, hletter]
  · simp [lower]

end Text

/-! ## Numbers marked as hex -/

namespace Address

open Text

theorem hexDigits?_lower (cs : List Char) : hexDigits? (lower cs) = (hexDigits? cs).map lower := by
  rw [hexDigits?, ← Option.or_assoc, bothCases_zeroX.after?_lower, bothCases_h.before?_lower,
    ← Option.map_or, Option.or_assoc, ← hexDigits?]

theorem hexLiteral?_lower (cs : List Char) : hexLiteral? (lower cs) = hexLiteral? cs := by
  have hdigits : Numeral.unsigned64? 16 ∘ lower = Numeral.unsigned64? 16 :=
    funext (Numeral.unsigned64?_lower 16)
  rw [hexLiteral?, trim_lower, hexDigits?_lower, Option.bind_map, hdigits, ← hexLiteral?]

end Address

namespace Line

open Text

/-! ## The address -/

theorem addressIn?_lower (cs : List Char) : addressIn? (lower cs) = addressIn? cs := by
  have hlast : ((trim (lower cs)).reverse.takeWhile (· ≠ ':')).reverse =
      lower ((trim cs).reverse.takeWhile (· ≠ ':')).reverse := by
    rw [trim_lower, reverse_lower, (caseBlind_ne rfl).takeWhile, reverse_lower]
  simp only [addressIn?, hlast, bothCases_zeroX.after?_lower, Option.getD_map,
    Numeral.unsigned64?_lower]

theorem caseBlind_isAsciiBlank : CaseBlind isAsciiBlank := by
  intro c
  simp only [isAsciiBlank, toLower_eq_iff (d := ' ') rfl, toLower_eq_iff (d := '\t') rfl,
    toLower_eq_iff (d := '\n') rfl, toLower_eq_iff (d := '\x0c') rfl,
    toLower_eq_iff (d := '\r') rfl]

/-- The colon behind the address and the blank behind the colon have no case. -/
theorem splitAddress?_lower (seen cs : List Char) :
    splitAddress? (lower seen) (lower cs) =
      (splitAddress? seen cs).map fun r => (r.1, lower r.2) := by
  induction cs generalizing seen with
  | nil => rfl
  | cons c cs ih =>
    have hnext : (lower cs).head?.all isAsciiBlank = cs.head?.all isAsciiBlank := by
      cases cs with
      | nil => rfl
      | cons d cs => exact caseBlind_isAsciiBlank d
    have hcolon : decide (c.toLower = ':') = decide (c = ':') := by
      rw [decide_eq_decide, toLower_eq_iff rfl]
    have hrest := ih (c :: seen)
    show splitAddress? (lower seen) (c.toLower :: lower cs) = _
    rw [splitAddress?, splitAddress?, hcolon, hnext, reverse_lower, addressIn?_lower]
    split
    · cases addressIn? seen.reverse with
      | none => exact hrest
      | some a => rfl
    · exact hrest

/-! ## The text -/

theorem isByteColumn_lower (cs : List Char) : isByteColumn (lower cs) = isByteColumn cs := by
  rw [isByteColumn, Numeral.caseBlind_isHexDigit.all, lower, List.length_map, isByteColumn]

theorem bareWord?_lower (cs : List Char) : bareWord? (lower cs) = bareWord? cs := by
  rw [bareWord?, Numeral.caseBlind_isHexDigit.all, Numeral.unsigned64?_lower, lower,
    List.length_map, bareWord?]

theorem mnemonicOf_lower (head : List Char) : mnemonicOf (lower head) = mnemonicOf head := by
  rw [mnemonicOf, upper_lower, mnemonicOf]

theorem datum?_lower (head tail : List Char) :
    datum? (lower head) (lower tail) = datum? head tail := by
  have hcomma : (lower tail).contains ',' = tail.contains ',' := by
    rw [Bool.eq_iff_iff, List.contains_iff_mem, List.contains_iff_mem, lower, List.mem_map]
    simp only [toLower_eq_iff (d := ',') rfl, exists_eq_right]
  rw [datum?, isEmpty_lower, Address.hexLiteral?_lower, Address.hexLiteral?_lower, bareWord?_lower,
    lower_lower, hcomma, datum?]

theorem splitText_lower (cs : List Char) :
    splitText (lower cs) = (lower (splitText cs).1, lower (splitText cs).2) := by
  simp only [splitText, firstWord_lower, isByteColumn_lower, isEmpty_lower]
  split <;> rfl

/-- The line with its operands in lower case. -/
def folded : Line → Line
  | .instruction i => .instruction { i with operands := lower i.operands }
  | .data a v => .data a v

theorem ofText?_lower (a : Address) (text : List Char) :
    ofText? a (lower text) = (ofText? a text).map folded := by
  simp only [ofText?, splitText_lower, isEmpty_lower, datum?_lower, isByteColumn_lower,
    mnemonicOf_lower]
  generalize splitText text = words
  by_cases hhead : words.1.isEmpty
  · simp only [hhead, if_true, Option.map_none]
  · simp only [hhead, Bool.false_eq_true, if_false]
    cases datum? words.1 words.2 with
    | some v => rfl
    | none =>
      by_cases hbytes : (words.2.isEmpty && isByteColumn words.1) = true
      · simp only [hbytes, if_true, Option.map_none]
      · simp only [hbytes, Bool.false_eq_true, if_false]
        rfl

/-- **Folding.** A folded line is read as the line, with its operands folded. -/
theorem parse?_lower (cs : List Char) : parse? (lower cs) = (parse? cs).map folded := by
  have hsplit : splitAddress? [] (lower cs) = (splitAddress? [] cs).map fun r => (r.1, lower r.2) :=
    splitAddress?_lower [] cs
  rw [parse?, parse?, hsplit]
  cases splitAddress? [] cs with
  | none => rfl
  | some r =>
    show ofText? r.1 (trim ((lower r.2).takeWhile (· ≠ ';'))) = (ofText? r.1 _).map folded
    rw [(caseBlind_ne rfl).takeWhile, trim_lower, ofText?_lower]

/-! ## Two lines -/

/-- Lines that are equal when folded differ in their operands at most. -/
theorem folded_eq_cases {l l' : Line} (h : l.folded = l'.folded) :
    (∃ a v, l = .data a v ∧ l' = .data a v) ∨
    ∃ a mnemonic operands operands', l = .instruction ⟨a, mnemonic, operands⟩ ∧
      l' = .instruction ⟨a, mnemonic, operands'⟩ ∧ lower operands = lower operands' := by
  cases l with
  | data a v =>
    cases l' with
    | data a' v' =>
      cases h
      exact Or.inl ⟨a, v, rfl, rfl⟩
    | instruction j => cases h
  | instruction i =>
    cases l' with
    | data a' v' => cases h
    | instruction j =>
      obtain ⟨a, mnemonic, operands⟩ := i
      obtain ⟨a', mnemonic', operands'⟩ := j
      simp only [folded, Line.instruction.injEq, Instruction.mk.injEq] at h
      obtain ⟨rfl, rfl, hoperands⟩ := h
      exact Or.inr ⟨a, mnemonic, operands, operands', rfl, rfl, hoperands⟩

/-- **The case of letters does not matter.** Two lines that are equal in lower case are both
dropped, or they are the same datum, or they are instructions at one address with one mnemonic, and
so of one kind, whose operands are equal in lower case. -/
theorem parse?_ignores_case (cs ds : List Char) (h : lower cs = lower ds) :
    (parse? cs = none ∧ parse? ds = none) ∨
    (∃ a v, parse? cs = some (.data a v) ∧ parse? ds = some (.data a v)) ∨
    ∃ a mnemonic operands operands',
      parse? cs = some (.instruction ⟨a, mnemonic, operands⟩) ∧
      parse? ds = some (.instruction ⟨a, mnemonic, operands'⟩) ∧
        lower operands = lower operands' := by
  have hfolded : (parse? cs).map folded = (parse? ds).map folded := by
    rw [← parse?_lower, h, parse?_lower]
  cases hcs : parse? cs with
  | none =>
    rw [hcs, Option.map_none, eq_comm, Option.map_eq_none_iff] at hfolded
    exact Or.inl ⟨rfl, hfolded⟩
  | some l =>
    rw [hcs, Option.map_some, eq_comm, Option.map_eq_some_iff] at hfolded
    obtain ⟨l', hds, hsame⟩ := hfolded
    rw [hds]
    rcases folded_eq_cases hsame.symm with ⟨a, v, rfl, rfl⟩ |
      ⟨a, mnemonic, operands, operands', rfl, rfl, hoperands⟩
    · exact Or.inr (Or.inl ⟨a, v, rfl, rfl⟩)
    · exact Or.inr (Or.inr ⟨a, mnemonic, operands, operands', rfl, rfl, hoperands⟩)

/-- Letters in the address, the byte column, the mnemonic, its width and the operands, in either
case. -/
theorem parse?_ignores_case_everywhere :
    let shouted := "ROM:0X80F0: 1000A0E5 LDR.W R2,[R3,#0X1F]".toList
    let quiet := "rom:0x80f0: 1000a0e5 ldr.w r2,[r3,#0x1f]".toList
    lower shouted = lower quiet ∧ ∃ operands,
      parse? quiet = some (.instruction ⟨0x80F0, ['L', 'D', 'R'], operands⟩) ∧
        lower operands = "r2,[r3,#0x1f]".toList := by
  intro shouted quiet
  have hlower : lower shouted = lower quiet := by decide
  have hshouted : parse? shouted =
      some (.instruction ⟨0x80F0, ['L', 'D', 'R'], "R2,[R3,#0X1F]".toList⟩) := by decide
  refine ⟨hlower, ?_⟩
  rcases parse?_ignores_case shouted quiet hlower with
    ⟨hnone, -⟩ | ⟨a, v, hdata, -⟩ | ⟨a, mnemonic, operands, operands', hcs, hds, hsame⟩
  · cases hshouted.symm.trans hnone
  · cases hshouted.symm.trans hdata
  · cases hshouted.symm.trans hcs
    exact ⟨operands', hds, hsame.symm⟩

end Line

end FirmScan
