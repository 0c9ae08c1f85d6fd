import FirmScan.Proofs.Listing.Operand
import Mathlib.Data.List.Induction
import Mathlib.Data.List.TakeWhile
import Mathlib.Order.Nat

/-!
# The first immediate of a text

`Operand.scanImmediate?` looks for a number in a text that may be anything. This file says which one
it finds.

**Immediates** (`SpellsAt`). At a position, `=` or `#` stands directly before `0x` and a run of hex
digits. The run is not empty, goes on as long as there are digits, and its value fits 64 bits.

**Leaps** (`leap?`). One may also search for `0x` in the lower-case text, look at the character
before it, and go on behind both characters if there is no number. Two occurrences of `0x` never
overlap, and a mark is none of their characters. So nothing is lost, wherever the search goes on
(`leap?_lower`).

**Theorem (`scanImmediate?_finds_first`).** A number is found if there is an immediate, and it is
the leftmost one. An `0x` without a mark, without digits or with too many of them hides none that
comes later. Leaps find the same number.
-/

namespace FirmScan.Operand

/-- At a position, `=` or `#` stands directly before `0x` and all digits of `v`. -/
def SpellsAt (cs : List Char) (p : Nat) (v : UInt64) : Prop :=
  ∃ mark x digits after, cs.drop p = mark :: '0' :: x :: (digits ++ after) ∧
    (mark = '=' ∨ mark = '#') ∧ (x = 'x' ∨ x = 'X') ∧ Numeral.natural? 16 digits = some v.toNat ∧
    ∀ c, after.head? = some c → Numeral.isHexDigit c = false

/-- Whether a character announces a number. -/
def isMark (c : Char) : Bool := c = '=' || c = '#'

/-- The number at the start of a text, if the character before it announces one. -/
def announced? (previous : Option Char) (cs : List Char) : Option UInt64 :=
  if previous.any isMark then hexAt? cs else none

/-! ## The leftmost position -/

theorem eq_of_hexAt? {cs : List Char} {v : UInt64} (h : hexAt? cs = some v) :
    ∃ x digits after, cs = '0' :: x :: (digits ++ after) ∧ (x = 'x' ∨ x = 'X') ∧
      Numeral.natural? 16 digits = some v.toNat ∧
      ∀ c, after.head? = some c → Numeral.isHexDigit c = false := by
  unfold hexAt? at h
  split at h
  case h_1 x rest =>
    split at h
    · rename_i hx
      have hdigits : ∀ c ∈ rest.takeWhile Numeral.isHexDigit, Numeral.isHexDigit c :=
        fun c hc => List.mem_takeWhile_imp hc
      refine ⟨x, rest.takeWhile Numeral.isHexDigit, rest.dropWhile Numeral.isHexDigit, ?_, ?_, ?_,
        ?_⟩
      · rw [List.takeWhile_append_dropWhile]
      · simpa using hx
      · exact Numeral.natural?_of_unsigned64? h fun hplus => absurd (hdigits _ hplus) (by decide)
      · intro c hc
        have := List.head?_dropWhile_not Numeral.isHexDigit rest
        rw [hc] at this
        simpa using this
    · cases h
  case h_2 => cases h

/-- **What is read as a hex number**: `0x` and a run of digits that fits 64 bits. -/
theorem hexAt?_eq_some_iff {cs : List Char} {v : UInt64} :
    hexAt? cs = some v ↔
      ∃ x digits after, cs = '0' :: x :: (digits ++ after) ∧ (x = 'x' ∨ x = 'X') ∧
        Numeral.natural? 16 digits = some v.toNat ∧
        ∀ c, after.head? = some c → Numeral.isHexDigit c = false := by
  refine ⟨eq_of_hexAt?, fun h => ?_⟩
  obtain ⟨x, digits, after, rfl, hx, hdigits, hafter⟩ := h
  have hx' : (x = 'x' || x = 'X') = true := by simpa using hx
  rw [hexAt?, if_pos hx', takeWhile_digits hdigits hafter,
    Numeral.unsigned64?_of_natural? hdigits v.toNat_lt, UInt64.ofNat_toNat]

theorem scanImmediate?_cons (c : Char) (rest : List Char) :
    scanImmediate? (c :: rest) = (announced? (some c) rest).or (scanImmediate? rest) := by
  rw [scanImmediate?, announced?, Option.any_some, isMark]
  split
  · rfl
  · rw [Option.none_or]

theorem not_spellsAt_nil (p : Nat) (v : UInt64) : ¬ SpellsAt [] p v := by
  intro h
  obtain ⟨mark, x, digits, after, hdrop, -⟩ := h
  rw [List.drop_nil] at hdrop
  cases hdrop

theorem spellsAt_zero_iff {c : Char} {rest : List Char} {v : UInt64} :
    SpellsAt (c :: rest) 0 v ↔ announced? (some c) rest = some v := by
  rw [announced?, Option.any_some, isMark, Option.ite_none_right_eq_some, hexAt?_eq_some_iff,
    Bool.or_eq_true, decide_eq_true_eq, decide_eq_true_eq]
  refine ⟨fun h => ?_, fun h => ?_⟩
  · obtain ⟨mark, x, digits, after, hdrop, hmark, hrest⟩ := h
    obtain ⟨rfl, rfl⟩ := List.cons.inj hdrop
    exact ⟨hmark, x, digits, after, rfl, hrest⟩
  · obtain ⟨hmark, x, digits, after, rfl, hrest⟩ := h
    exact ⟨c, x, digits, after, rfl, hmark, hrest⟩

/-- **Step.** What is found starts at the first character, or nothing does and it is found behind
it. -/
theorem scanImmediate?_cons_iff {c : Char} {rest : List Char} {v : UInt64} :
    scanImmediate? (c :: rest) = some v ↔
      SpellsAt (c :: rest) 0 v ∨
        (∀ w, ¬ SpellsAt (c :: rest) 0 w) ∧ scanImmediate? rest = some v := by
  have hnone : (∀ w, ¬ SpellsAt (c :: rest) 0 w) ↔ announced? (some c) rest = none := by
    rw [Option.eq_none_iff_forall_ne_some]
    exact forall_congr' fun w => not_congr spellsAt_zero_iff
  rw [scanImmediate?_cons, Option.or_eq_some_iff, spellsAt_zero_iff, hnone]

/-- **Run.** What is found is the immediate at the leftmost position. -/
theorem scanImmediate?_eq_some_iff {cs : List Char} {v : UInt64} :
    scanImmediate? cs = some v ↔ ∃ p, SpellsAt cs p v ∧ ∀ q < p, ∀ w, ¬ SpellsAt cs q w := by
  induction cs with
  | nil =>
    refine iff_of_false (fun h => ?_) (fun h => ?_)
    · cases h
    · obtain ⟨p, hp, -⟩ := h
      exact not_spellsAt_nil p v hp
  | cons c rest ih =>
    rw [scanImmediate?_cons_iff, ih]
    -- A position in the rest is the next one in the whole text.
    refine ⟨fun h => ?_, fun h => ?_⟩
    · rcases h with hfirst | ⟨hnone, p, hp, hbefore⟩
      · exact ⟨0, hfirst, fun q hq => absurd hq (Nat.not_lt_zero q)⟩
      · refine ⟨p + 1, hp, fun q hq => ?_⟩
        cases q with
        | zero => exact hnone
        | succ q => exact hbefore q (Nat.lt_of_succ_lt_succ hq)
    · obtain ⟨p, hp, hbefore⟩ := h
      cases p with
      | zero => exact Or.inl hp
      | succ p =>
        refine Or.inr ⟨hbefore 0 (Nat.succ_pos p), p, hp, fun q hq => ?_⟩
        exact hbefore (q + 1) (Nat.succ_lt_succ hq)

/-- Nothing hides an immediate. -/
theorem isSome_scanImmediate?_iff {cs : List Char} :
    (scanImmediate? cs).isSome ↔ ∃ p v, SpellsAt cs p v := by
  rw [Option.isSome_iff_exists]
  refine ⟨fun h => ?_, fun h => ?_⟩
  · obtain ⟨v, hv⟩ := h
    obtain ⟨p, hp, -⟩ := scanImmediate?_eq_some_iff.1 hv
    exact ⟨p, v, hp⟩
  · -- Of all positions with an immediate the search stops at the smallest.
    classical
    obtain ⟨v, hv⟩ := Nat.find_spec h
    refine ⟨v, scanImmediate?_eq_some_iff.2 ⟨Nat.find h, hv, fun q hq w hw => ?_⟩⟩
    exact Nat.find_min h hq ⟨w, hw⟩

/-! ## Leaps -/

/-- Search for `0x` in a text without capitals. `previous` is the character before the text. -/
def leap? (previous : Option Char) : List Char → Option UInt64
  | c :: d :: rest =>
    if c = '0' && d = 'x' then
      (if previous.any isMark then Numeral.unsigned64? 16 (rest.takeWhile Numeral.isHexDigit)
        else none).or (leap? (some 'x') rest)
    else leap? (some c) (d :: rest)
  | _ => none

theorem isMark_toLower (c : Char) : isMark c.toLower = isMark c := by
  rw [isMark, isMark]
  simp only [Text.toLower_eq_iff (d := '=') rfl, Text.toLower_eq_iff (d := '#') rfl]

/-- Whether a number starts here can be told from the lower-case text. -/
theorem hexAt?_cons_cons (c d : Char) (rest : List Char) :
    hexAt? (c :: d :: rest) =
      if c.toLower = '0' && d.toLower = 'x' then
        Numeral.unsigned64? 16 ((Text.lower rest).takeWhile Numeral.isHexDigit)
      else none := by
  rw [Numeral.caseBlind_isHexDigit.takeWhile, Numeral.unsigned64?_lower]
  simp only [Text.toLower_eq_iff (d := '0') rfl, Text.toLower_eq_letter_iff (d := 'x') rfl]
  by_cases hc : c = '0'
  · subst hc
    simp [hexAt?]
  · simp [hexAt?, hc]

/-- Neither character of `0x` is a mark. -/
theorem scanImmediate?_zeroX {c d : Char} (hc : c.toLower = '0') (hd : d.toLower = 'x')
    (rest : List Char) :
    scanImmediate? (c :: d :: rest) = scanImmediate? rest := by
  have hmark : isMark c = false := by rw [← isMark_toLower, hc]; rfl
  have hmark' : isMark d = false := by rw [← isMark_toLower, hd]; rfl
  simp [scanImmediate?_cons, announced?, hmark, hmark']

/-- **Leaps lose nothing.** The induction takes one character or two, as the search does. -/
theorem leap?_lower (previous : Option Char) (cs : List Char) :
    leap? previous (Text.lower cs) = (announced? previous cs).or (scanImmediate? cs) := by
  induction cs using List.twoStepInduction generalizing previous with
  | nil => simp [Text.lower, leap?, announced?, hexAt?, scanImmediate?]
  | singleton c => simp [Text.lower, leap?, announced?, hexAt?, scanImmediate?]
  | cons_cons c d rest ihBehind ihNext =>
    show leap? previous (c.toLower :: d.toLower :: Text.lower rest) = _
    rw [leap?, announced?, hexAt?_cons_cons]
    by_cases hzero : (c.toLower = '0' && d.toLower = 'x') = true
    · obtain ⟨hc, hd⟩ := Bool.and_eq_true_iff.1 hzero
      have hbehind : leap? (some 'x') (Text.lower rest) = scanImmediate? rest := ihBehind (some 'x')
      rw [if_pos hzero, if_pos hzero, hbehind,
        scanImmediate?_zeroX (of_decide_eq_true hc) (of_decide_eq_true hd)]
    · have hnext := ihNext d (some c.toLower)
      have hsame : announced? (some c.toLower) (d :: rest) = announced? (some c) (d :: rest) := by
        rw [announced?, announced?, Option.any_some, Option.any_some, isMark_toLower]
      rw [hsame, ← scanImmediate?_cons] at hnext
      rw [if_neg hzero, if_neg hzero, ite_self, Option.none_or, ← hnext]
      rfl

/-- **The first immediate is found**, by a scan of all positions and by leaps alike. -/
theorem scanImmediate?_finds_first (cs : List Char) :
    (∀ v, scanImmediate? cs = some v ↔ ∃ p, SpellsAt cs p v ∧ ∀ q < p, ∀ w, ¬ SpellsAt cs q w) ∧
      ((scanImmediate? cs).isSome ↔ ∃ p v, SpellsAt cs p v) ∧
      leap? none (Text.lower cs) = scanImmediate? cs := by
  refine ⟨fun v => scanImmediate?_eq_some_iff, isSome_scanImmediate?_iff, ?_⟩
  exact leap?_lower none cs

/-- Too many digits, no digits and no mark come before the number. -/
example : scanImmediate? "#0x10000000000000000,=0x,0x7,#0X2a".toList = some 42 := by decide

end FirmScan.Operand
