import FirmScan.Error
import FirmScan.Proofs.Listing.Decorated
import FirmScan.Proofs.Template.Field

/-!
# Addresses are read as they are printed

An address is read by two readers. Requests and manifests take it in hex, with a mark in front or
behind, or in decimal (`ofText`); inline data takes it in hex only (`hexLiteral?`).

**Spellings** (`Spells`). The digits of a hex number stand in either case, with zeros in front or
without. Any blanks may surround the number.

**Decimal** (`IsDecimal`). A number is decimal if no mark of hex numbers is on it. A text that has a
mark and no hex number is not tried as decimal.

**Theorem (`readers_agree`).** Every spelling of an address is read as the address, the one that
reports print among them. What inline data reads, `ofText` reads as the same number; beyond it,
`ofText` reads the decimal numbers and nothing else, and the error for all other texts holds the
text as it was given.
-/

namespace FirmScan.Address

/-! ## Spellings -/

/-- The text spells the address, in hex or in decimal. -/
inductive Spells (v : Address) : List Char → Prop
  | hex {cs : List Char} (h : Line.IsHexLiteral v cs) : Spells v cs
  | decimal : Spells v (Numeral.decimal v.toNat)

/-- The text is a decimal number of 64 bits, with a plus sign in front or without, and no mark is on
it. -/
structure IsDecimal (v : Address) (cs : List Char) : Prop where
  not_front : ¬ ['0', 'x'] <+: cs ∧ ¬ ['0', 'X'] <+: cs
  not_behind : ¬ ['h'] <:+ cs ∧ ¬ ['H'] <:+ cs
  digits : ∃ ds, (cs = ds ∨ cs = '+' :: ds) ∧ ds ≠ [] ∧ (∀ c ∈ ds, c.isDigit) ∧
    Template.runValue ds = v.toNat

theorem hexDigits?_eq_none_iff {cs : List Char} :
    hexDigits? cs = none ↔
      (¬ ['0', 'x'] <+: cs ∧ ¬ ['0', 'X'] <+: cs) ∧ ¬ ['h'] <:+ cs ∧ ¬ ['H'] <:+ cs := by
  simp only [hexDigits?, Option.or_eq_none_iff, Text.after?_eq_none_iff, Text.before?_eq_none_iff,
    and_assoc]

/-! ## Reading -/

theorem parse?_of_hexLiteral? {v : Address} {cs : List Char} (h : hexLiteral? cs = some v) :
    parse? cs = some v := by
  obtain ⟨ds, hds, hv⟩ := Option.bind_eq_some_iff.1 h
  rw [parse?, hds]
  exact hv

/-- **Beyond the hex numbers** only decimal ones are read. -/
theorem parse?_eq_some_iff {v : Address} {cs : List Char} (h : hexLiteral? cs = none) :
    parse? cs = some v ↔ IsDecimal v (Text.trim cs) := by
  cases hds : hexDigits? (Text.trim cs) with
  | some ds =>
    -- A mark decides for hex, also where no hex number follows.
    have hnone : Numeral.unsigned64? 16 ds = none := by
      rwa [hexLiteral?, hds, Option.bind_some] at h
    have hmarked : ¬ IsDecimal v (Text.trim cs) := by
      intro hdecimal
      have hplain := hexDigits?_eq_none_iff.2 ⟨hdecimal.not_front, hdecimal.not_behind⟩
      cases hds.symm.trans hplain
    simp [parse?, hds, hnone, hmarked]
  | none =>
    obtain ⟨hfront, hbehind⟩ := hexDigits?_eq_none_iff.1 hds
    simp only [parse?, hds, Numeral.unsigned64?_eq_some_iff, Template.natural?_ten_iff]
    exact ⟨fun hdigits => ⟨hfront, hbehind, hdigits⟩, fun hdecimal => hdecimal.digits⟩

theorem Spells.parse? {v : Address} {cs : List Char} (h : Spells v cs) : parse? cs = some v := by
  cases h with
  | hex h => exact parse?_of_hexLiteral? h.hexLiteral?
  | decimal =>
    have hnatural := Numeral.natural?_decimal v.toNat
    have htrim : Text.trim (Numeral.decimal v.toNat) = Numeral.decimal v.toNat :=
      Text.trim_of_forall fun c hc =>
        Text.not_isBlank_of_isAlphanum (Numeral.isAlphanum_of_natural? hnatural c hc)
    rw [Address.parse?, htrim, Line.hexDigits?_eq_none (Numeral.isHexDigit_of_natural? hnatural)]
    show Numeral.unsigned64? 10 _ = _
    rw [Numeral.unsigned64?_of_natural? hnatural v.toNat_lt, UInt64.ofNat_toNat]

theorem isHexLiteral_text (v : Address) : Line.IsHexLiteral v v.text.toList := by
  have htext : v.text.toList = '0' :: 'x' :: (Numeral.upperHex v.toNat).leftpad 8 '0' := by
    simp [text, Numeral.hex8]
  rw [htext]
  exact .front (Or.inl rfl) (Numeral.isHex_leftpad v.toNat 8)

theorem ofText_eq_ok_iff {t : String} {v : Address} :
    ofText t = .ok v ↔ parse? t.toList = some v := by
  rw [ofText]
  cases parse? t.toList with
  | none => simp
  | some a => simp

/-- **Printed addresses are read back, and the two readers agree.** Any spelling with any blanks
around it is read as the address, and what reports print is a spelling. A number that inline data
reads is read the same by `ofText`. Of the other texts `ofText` reads those that are decimal
numbers, and refuses the rest as they were given. -/
theorem readers_agree :
    (∀ (v : Address) (cs front back : List Char), Spells v cs → (∀ c ∈ front, Text.isBlank c) →
      (∀ c ∈ back, Text.isBlank c) → ofText (String.ofList (front ++ cs ++ back)) = .ok v) ∧
    (∀ v : Address, Spells v v.text.toList) ∧
    ∀ t : String,
      (∀ v, hexLiteral? t.toList = some v → ofText t = .ok v) ∧
      (hexLiteral? t.toList = none →
        (∀ v, ofText t = .ok v ↔ IsDecimal v (Text.trim t.toList)) ∧
        ((∀ v, ¬ IsDecimal v (Text.trim t.toList)) → ofText t = .error (.invalidAddress t))) := by
  refine ⟨fun v cs front back h hfront hback => ?_, fun v => .hex v.isHexLiteral_text, fun t =>
    ⟨fun v h => ?_, fun h => ⟨fun v => ?_, ?_⟩⟩⟩
  · rw [ofText_eq_ok_iff, String.toList_ofList, parse?, Text.trim_surrounded hfront hback, ← parse?,
      h.parse?]
  · exact ofText_eq_ok_iff.2 (parse?_of_hexLiteral? h)
  · rw [ofText_eq_ok_iff, parse?_eq_some_iff h]
  · intro hnot
    have hnone : parse? t.toList = none := by
      rw [Option.eq_none_iff_forall_ne_some]
      intro v hv
      exact hnot v ((parse?_eq_some_iff h).1 hv)
    rw [ofText, hnone]

/-- Blanks and digits of both cases around a hex number, the greatest decimal number, and a text
that has two marks. -/
theorem readers_agree_at_marks :
    ofText "\t0x0000beEF\n" = .ok 0xBEEF ∧ ofText "+18446744073709551615" = .ok 0xFFFFFFFFFFFFFFFF ∧
      ofText " 0x10h" = .error (.invalidAddress " 0x10h") := by
  obtain ⟨hspelled, -, hagree⟩ := readers_agree
  refine ⟨?_, ?_, ?_⟩
  · exact hspelled 0xBEEF "0x0000beEF".toList ['\t'] ['\n'] (.hex (.front (Or.inl rfl) ⟨8, rfl⟩))
      (List.forall_mem_singleton.2 rfl) (List.forall_mem_singleton.2 rfl)
  · have hdigits : "18446744073709551615".toList.all Char.isDigit = true := by decide
    refine ((hagree _).2 (by decide)).1 _ |>.2
      ⟨by decide, by decide, "18446744073709551615".toList, Or.inr (by decide),
      by decide, ?_, by decide⟩
    exact List.all_eq_true.1 hdigits
  · refine ((hagree _).2 (by decide)).2 fun v h => ?_
    exact h.not_front.1 (by decide)

end FirmScan.Address
