import FirmScan.Text.Blank
import Mathlib.Algebra.Group.Nat.Defs
import Mathlib.Data.List.DropRight
import Mathlib.Data.List.Induction
import Mathlib.Data.List.TakeWhile

/-!
# Cutting text

What trimming, cutting and folding case do to texts of a known shape. Most texts here are runs of
letters and digits, which contain no blank and none of the marks that divide a line.
-/

namespace FirmScan.Text

/-! ## Letters and digits -/

theorem isDigit_iff {c : Char} : c.isDigit ↔ 48 ≤ c.toNat ∧ c.toNat ≤ 57 := by
  delta Char.isDigit
  simp only [Bool.and_eq_true, decide_eq_true_eq, ge_iff_le, UInt32.le_iff_toNat_le]
  rfl

theorem isUpper_iff {c : Char} : c.isUpper ↔ 65 ≤ c.toNat ∧ c.toNat ≤ 90 := by
  delta Char.isUpper
  simp only [decide_eq_true_eq, ge_iff_le, UInt32.le_iff_toNat_le]
  rfl

theorem isLower_iff {c : Char} : c.isLower ↔ 97 ≤ c.toNat ∧ c.toNat ≤ 122 := by
  delta Char.isLower
  simp only [Bool.and_eq_true, decide_eq_true_eq, ge_iff_le, UInt32.le_iff_toNat_le]
  rfl

theorem isAlphanum_iff {c : Char} :
    c.isAlphanum ↔ (48 ≤ c.toNat ∧ c.toNat ≤ 57) ∨ (65 ≤ c.toNat ∧ c.toNat ≤ 90) ∨
      (97 ≤ c.toNat ∧ c.toNat ≤ 122) := by
  delta Char.isAlphanum Char.isAlpha Char.isUpper Char.isLower Char.isDigit
  simp only [Bool.or_eq_true, Bool.and_eq_true, decide_eq_true_eq, ge_iff_le,
    UInt32.le_iff_toNat_le]
  show ((65 ≤ c.toNat ∧ c.toNat ≤ 90) ∨ (97 ≤ c.toNat ∧ c.toNat ≤ 122)) ∨
    (48 ≤ c.toNat ∧ c.toNat ≤ 57) ↔ _
  omega

theorem ne_of_isAlphanum {c d : Char} (hc : c.isAlphanum) (hd : d.isAlphanum = false) : c ≠ d := by
  intro h
  rw [h, hd] at hc
  cases hc

theorem not_isBlank_of_isAlphanum {c : Char} (h : c.isAlphanum) : isBlank c = false := by
  have := isAlphanum_iff.1 h
  simp only [isBlank, inRanges, blankRanges, List.any_cons, List.any_nil, Bool.or_false,
    Bool.or_eq_false_iff, Bool.and_eq_false_iff, decide_eq_false_iff_not]
  omega

/-! ## Trimming -/

theorem dropWhile_of_head {p : Char → Bool} {cs : List Char}
    (h : ∀ c, cs.head? = some c → p c = false) : cs.dropWhile p = cs := by
  cases cs with
  | nil => rfl
  | cons c cs => rw [List.dropWhile_cons_of_neg (by simp [h c rfl])]

theorem trimEnd_of_last {cs : List Char} (h : ∀ c, cs.getLast? = some c → isBlank c = false) :
    trimEnd cs = cs := by
  have hend : cs.reverse.dropWhile isBlank = cs.reverse :=
    dropWhile_of_head fun c hc => h c (List.head?_reverse ▸ hc)
  rw [trimEnd, hend, List.reverse_reverse]

/-- A text that neither starts nor ends with a blank is trimmed already. -/
theorem trim_of_ends {cs : List Char} (hhead : ∀ c, cs.head? = some c → isBlank c = false)
    (hlast : ∀ c, cs.getLast? = some c → isBlank c = false) : trim cs = cs := by
  rw [trim, trimStart, dropWhile_of_head hhead, trimEnd_of_last hlast]

theorem trim_of_forall {cs : List Char} (h : ∀ c ∈ cs, isBlank c = false) : trim cs = cs :=
  trim_of_ends (fun c hc => h c (List.mem_of_mem_head? hc))
    (fun c hc => h c (List.mem_of_getLast? hc))

/-- Trimming takes away blanks only. -/
theorem mem_trim {c : Char} {cs : List Char} (h : c ∈ cs) (hc : isBlank c = false) :
    c ∈ trim cs := by
  have hdrop {ds : List Char} (h : c ∈ ds) : c ∈ ds.dropWhile isBlank := by
    rw [← List.takeWhile_append_dropWhile (p := isBlank) (l := ds)] at h
    rcases List.mem_append.1 h with h | h
    · rw [List.mem_takeWhile_imp h] at hc
      cases hc
    · exact h
  rw [trim, trimEnd, trimStart, List.mem_reverse]
  exact hdrop (List.mem_reverse.2 (hdrop h))

theorem mem_of_mem_trim {c : Char} {cs : List Char} (h : c ∈ trim cs) : c ∈ cs := by
  rw [trim, trimEnd, trimStart, List.mem_reverse] at h
  exact (List.dropWhile_suffix _).subset (List.mem_reverse.1 ((List.dropWhile_suffix _).subset h))

theorem trim_cons_of_isBlank {c : Char} (h : isBlank c = true) (cs : List Char) :
    trim (c :: cs) = trim cs := by
  rw [trim, trimStart, List.dropWhile_cons_of_pos h]
  rfl

theorem trimStart_append {w : List Char} (hw : ∀ c, w.head? = some c → isBlank c = false)
    (cs : List Char) : trimStart (cs ++ w) = trimStart cs ++ w := by
  rw [trimStart, List.dropWhile_append, dropWhile_of_head hw, trimStart]
  split
  · rename_i hempty
    rw [List.isEmpty_iff.1 hempty, List.nil_append]
  · rfl

theorem trimEnd_concat_of_isBlank {c : Char} (h : isBlank c = true) (cs : List Char) :
    trimEnd (cs ++ [c]) = trimEnd cs := by
  rw [trimEnd, List.reverse_append, List.reverse_singleton, List.singleton_append,
    List.dropWhile_cons_of_pos h, trimEnd]

theorem trim_concat_of_isBlank {c : Char} (h : isBlank c = true) (cs : List Char) :
    trim (cs ++ [c]) = trim cs := by
  rw [trim, trimStart, List.dropWhile_append]
  split
  · rename_i hempty
    rw [trim, trimStart, List.isEmpty_iff.1 hempty, List.dropWhile_cons_of_pos h]
    rfl
  · exact trimEnd_concat_of_isBlank h _

/-- Blanks around a text are trimmed with those of its own. -/
theorem trim_surrounded {front back : List Char} (hfront : ∀ c ∈ front, isBlank c)
    (hback : ∀ c ∈ back, isBlank c) (cs : List Char) : trim (front ++ cs ++ back) = trim cs := by
  induction front with
  | nil =>
    rw [List.nil_append]
    induction back using List.reverseRecOn with
    | nil => rw [List.append_nil]
    | append_singleton back b ih =>
      obtain ⟨hrest, hb⟩ := List.forall_mem_append.1 hback
      rw [← List.append_assoc, trim_concat_of_isBlank (hb b (List.mem_singleton.2 rfl)), ih hrest]
  | cons f front ih =>
    obtain ⟨hf, hrest⟩ := List.forall_mem_cons.1 hfront
    rw [List.cons_append, List.cons_append, trim_cons_of_isBlank hf, ih hrest]

theorem trim_trimEnd (cs : List Char) : trim (trimEnd cs) = trim cs := by
  induction cs using List.reverseRecOn with
  | nil => rfl
  | append_singleton cs c ih =>
    by_cases h : isBlank c = true
    · rw [trimEnd_concat_of_isBlank h, trim_concat_of_isBlank h, ih]
    · have hlast : ∀ d, (cs ++ [c]).getLast? = some d → isBlank d = false := by
        intro d hd
        rw [List.getLast?_concat] at hd
        cases hd
        simpa using h
      rw [trimEnd_of_last hlast]

theorem trim_trim (cs : List Char) : trim (trim cs) = trim cs := by
  have hstart : trim (trimStart cs) = trim cs := by
    rw [trim, trim, trimStart, trimStart, List.dropWhile_idempotent]
  exact (trim_trimEnd (trimStart cs)).trans hstart

theorem trim_cons_of_not_isBlank {c : Char} (h : isBlank c = false) (cs : List Char) :
    trim (c :: cs) = c :: trimEnd cs := by
  rw [trim, trimStart, List.dropWhile_cons_of_neg (by simp [h]), trimEnd, List.reverse_cons,
    List.dropWhile_append]
  split
  · rename_i hempty
    rw [trimEnd, List.isEmpty_iff.1 hempty, List.dropWhile_cons_of_neg (by simp [h])]
    rfl
  · rw [List.reverse_append, trimEnd]
    rfl

/-- A text that is not empty and neither starts nor ends with a blank. -/
structure Tight (cs : List Char) : Prop where
  ne_nil : cs ≠ []
  head : ∀ c, cs.head? = some c → isBlank c = false
  last : ∀ c, cs.getLast? = some c → isBlank c = false

namespace Tight

variable {cs ds : List Char}

theorem of_forall (hne : cs ≠ []) (h : ∀ c ∈ cs, isBlank c = false) : Tight cs :=
  ⟨hne, fun c hc => h c (List.mem_of_mem_head? hc), fun c hc => h c (List.mem_of_getLast? hc)⟩

theorem trim (h : Tight cs) : trim cs = cs := trim_of_ends h.head h.last

/-- Whatever stands between two such texts. -/
theorem append (h : Tight cs) (gap : List Char) (h' : Tight ds) : Tight (cs ++ (gap ++ ds)) where
  ne_nil := by simp [h.ne_nil]
  head c hc := by
    rw [List.head?_append, Option.or_of_isSome (by simpa using h.ne_nil)] at hc
    exact h.head c hc
  last c hc := by
    rw [← List.append_assoc, List.getLast?_append,
      Option.or_of_isSome (by simpa using h'.ne_nil)] at hc
    exact h'.last c hc

end Tight

theorem trim_append {w : List Char} (hw : Tight w) (cs : List Char) :
    trim (cs ++ w) = trimStart cs ++ w := by
  rw [trim, trimStart_append hw.head, trimEnd_of_last]
  intro c hc
  rw [List.getLast?_append, Option.or_of_isSome (by simpa using hw.ne_nil)] at hc
  exact hw.last c hc

/-! ## Cutting -/

theorem firstWord_of_forall {w : List Char} (hw : ∀ c ∈ w, isBlank c = false) :
    firstWord w = (w, []) := by
  have hw' : ∀ c ∈ w, (!isBlank c) = true := fun c hc => by rw [hw c hc]; rfl
  rw [firstWord, List.takeWhile_eq_self_iff.2 hw', List.dropWhile_eq_nil_iff.2 hw']
  rfl

/-- The first word ends at the first blank. -/
theorem firstWord_append {w : List Char} (hw : ∀ c ∈ w, isBlank c = false) {b : Char}
    (hb : isBlank b = true) (rest : List Char) : firstWord (w ++ b :: rest) = (w, trim rest) := by
  have hw' : ∀ c ∈ w, (!isBlank c) = true := fun c hc => by rw [hw c hc]; rfl
  rw [firstWord, List.takeWhile_append_of_pos hw', List.dropWhile_append_of_pos hw',
    List.takeWhile_cons_of_neg (by simp [hb]), List.dropWhile_cons_of_neg (by simp [hb]),
    trim_cons_of_isBlank hb, List.append_nil]

theorem after?_append (start cs : List Char) : after? start (start ++ cs) = some cs := by
  simp [after?]

theorem eq_append_of_after? {start cs rest : List Char} (h : after? start cs = some rest) :
    cs = start ++ rest := by
  rw [after?] at h
  split at h
  · rename_i hstart
    obtain ⟨later, rfl⟩ := List.isPrefixOf_iff_prefix.1 hstart
    rw [List.drop_left, Option.some.injEq] at h
    rw [h]
  · cases h

theorem after?_eq_none_iff {start cs : List Char} : after? start cs = none ↔ ¬ start <+: cs := by
  simp [after?]

theorem after?_eq_none {start cs : List Char} (h : ¬ start <+: cs) : after? start cs = none :=
  after?_eq_none_iff.2 h

theorem after?_of_not_mem {start cs : List Char} {c : Char} (hc : c ∈ start) (h : c ∉ cs) :
    after? start cs = none :=
  after?_eq_none fun hstart => h (hstart.subset hc)

theorem before?_append (cs last : List Char) : before? last (cs ++ last) = some cs := by
  simp [before?]

theorem eq_append_of_before? {last cs rest : List Char} (h : before? last cs = some rest) :
    cs = rest ++ last := by
  rw [before?] at h
  split at h
  · rename_i hlast
    obtain ⟨earlier, rfl⟩ := List.isSuffixOf_iff_suffix.1 hlast
    rw [List.length_append, Nat.add_sub_cancel, List.take_left, Option.some.injEq] at h
    rw [h]
  · cases h

theorem before?_eq_none_iff {last cs : List Char} : before? last cs = none ↔ ¬ last <:+ cs := by
  simp [before?]

theorem before?_eq_none {last cs : List Char} (h : ¬ last <:+ cs) : before? last cs = none :=
  before?_eq_none_iff.2 h

theorem before?_of_not_mem {last cs : List Char} {c : Char} (hc : c ∈ last) (h : c ∉ cs) :
    before? last cs = none :=
  before?_eq_none fun hlast => h (hlast.subset hc)

theorem cutAt?_append {p : Char → Bool} {w : List Char} (hw : ∀ c ∈ w, p c = false) {d : Char}
    (hd : p d = true) (rest : List Char) : cutAt? p (w ++ d :: rest) = some (w, rest) := by
  induction w with
  | nil => simp [cutAt?, hd]
  | cons c w ih =>
    rw [List.cons_append, cutAt?, hw c List.mem_cons_self,
      ih fun c hc => hw c (List.mem_cons_of_mem _ hc)]
    rfl

theorem cutAt?_eq_none_iff {p : Char → Bool} {cs : List Char} :
    cutAt? p cs = none ↔ ∀ c ∈ cs, p c = false := by
  induction cs with
  | nil => simp [cutAt?]
  | cons c cs ih =>
    by_cases hc : p c = true
    · simp [cutAt?, hc]
    · simp [cutAt?, hc, ih]

theorem eq_append_of_cutAt? {p : Char → Bool} {cs w rest : List Char}
    (h : cutAt? p cs = some (w, rest)) :
    ∃ d, cs = w ++ d :: rest ∧ p d = true ∧ ∀ c ∈ w, p c = false := by
  induction cs generalizing w with
  | nil => cases h
  | cons c cs ih =>
    rw [cutAt?] at h
    by_cases hc : p c = true
    · rw [if_pos hc] at h
      cases h
      exact ⟨c, rfl, hc, by simp⟩
    · rw [if_neg hc, Option.map_eq_some_iff] at h
      obtain ⟨⟨w', rest'⟩, hcut, heq⟩ := h
      cases heq
      obtain ⟨d, rfl, hd, hw⟩ := ih hcut
      exact ⟨d, rfl, hd, List.forall_mem_cons.2 ⟨by simpa using hc, hw⟩⟩

/-- Between the texts there is nothing but the divider. -/
theorem mem_intercalate_iff {c d : Char} (hc : c ≠ d) {ws : List (List Char)} :
    c ∈ [d].intercalate ws ↔ ∃ w ∈ ws, c ∈ w := by
  induction ws with
  | nil => simp
  | cons w ws ih =>
    cases ws with
    | nil => simp
    | cons w' ws => simp [List.intercalate_cons_cons, hc, ih]

/-! ## Upper case -/

theorem toNat_toUpper (c : Char) :
    c.toUpper.toNat = if 97 ≤ c.toNat ∧ c.toNat ≤ 122 then c.toNat - 32 else c.toNat := by
  have hrange : 'a'.val ≤ c.val ∧ c.val ≤ 'z'.val ↔ 97 ≤ c.toNat ∧ c.toNat ≤ 122 := by
    rw [UInt32.le_iff_toNat_le, UInt32.le_iff_toNat_le]
    rfl
  by_cases h : 97 ≤ c.toNat ∧ c.toNat ≤ 122
  · have hdist : ('A'.val - 'a'.val).toNat = 2 ^ 32 - 32 := by decide
    delta Char.toUpper
    rw [if_pos h, dif_pos (hrange.2 h)]
    show (c.val + ('A'.val - 'a'.val)).toNat = _
    rw [UInt32.toNat_add, hdist]
    show (c.toNat + (2 ^ 32 - 32)) % 2 ^ 32 = _
    omega
  · delta Char.toUpper
    rw [if_neg h, dif_neg (mt hrange.1 h)]

theorem isAlphanum_toUpper {c : Char} (h : c.isAlphanum) : c.toUpper.isAlphanum := by
  rw [isAlphanum_iff, toNat_toUpper]
  rw [isAlphanum_iff] at h
  split <;> omega

theorem upper_upper (cs : List Char) : upper (upper cs) = upper cs := by
  rw [upper, upper, List.map_map]
  congr 1
  funext c
  show c.toUpper.toUpper = c.toUpper
  rw [← Char.toNat_inj, toNat_toUpper c.toUpper, if_neg]
  rw [toNat_toUpper]
  split <;> omega

theorem not_letter_of_isAlpha_eq_false {d : Char} (hd : d.isAlpha = false) :
    ¬ (65 ≤ d.toNat ∧ d.toNat ≤ 90 ∨ 97 ≤ d.toNat ∧ d.toNat ≤ 122) := by
  rw [← isUpper_iff, ← isLower_iff]
  delta Char.isAlpha at hd
  simpa using hd

theorem toUpper_eq_iff {c d : Char} (hd : d.isAlpha = false) : c.toUpper = d ↔ c = d := by
  have hletter := not_letter_of_isAlpha_eq_false hd
  rw [← Char.toNat_inj, ← Char.toNat_inj, toNat_toUpper]
  split_ifs <;> omega

theorem isBlank_toUpper (c : Char) : isBlank c.toUpper = isBlank c := by
  by_cases h : c.isAlphanum = true
  · rw [not_isBlank_of_isAlphanum (isAlphanum_toUpper h), not_isBlank_of_isAlphanum h]
  · have hsame : c.toUpper = c := by
      rw [isAlphanum_iff] at h
      rw [← Char.toNat_inj, toNat_toUpper]
      split_ifs <;> omega
    rw [hsame]

theorem trim_upper (cs : List Char) : trim (upper cs) = upper (trim cs) := by
  have hblank : isBlank ∘ Char.toUpper = isBlank := funext isBlank_toUpper
  simp only [trim, trimStart, trimEnd, upper, List.dropWhile_map, ← List.map_reverse, hblank]

/-! ## Lower case -/

theorem toNat_toLower (c : Char) :
    c.toLower.toNat = if 65 ≤ c.toNat ∧ c.toNat ≤ 90 then c.toNat + 32 else c.toNat := by
  have hrange : c.val ≥ 'A'.val ∧ c.val ≤ 'Z'.val ↔ 65 ≤ c.toNat ∧ c.toNat ≤ 90 := by
    rw [ge_iff_le, UInt32.le_iff_toNat_le, UInt32.le_iff_toNat_le]
    rfl
  by_cases h : 65 ≤ c.toNat ∧ c.toNat ≤ 90
  · have hdist : ('a'.val - 'A'.val).toNat = 32 := by decide
    delta Char.toLower
    rw [if_pos h, dif_pos (hrange.2 h)]
    show (c.val + ('a'.val - 'A'.val)).toNat = _
    rw [UInt32.toNat_add, hdist]
    show (c.toNat + 32) % 2 ^ 32 = _
    omega
  · delta Char.toLower
    rw [if_neg h, dif_neg (mt hrange.1 h)]

theorem toLower_of_not_upper {c : Char} (h : ¬ (65 ≤ c.toNat ∧ c.toNat ≤ 90)) : c.toLower = c := by
  rw [← Char.toNat_inj, toNat_toLower, if_neg h]

theorem toUpper_toLower (c : Char) : c.toLower.toUpper = c.toUpper := by
  rw [← Char.toNat_inj, toNat_toUpper, toNat_toUpper, toNat_toLower]
  split_ifs <;> omega

theorem upper_lower (cs : List Char) : upper (lower cs) = upper cs := by
  rw [upper, lower, List.map_map]
  exact List.map_congr_left fun c _ => toUpper_toLower c

theorem lower_lower (cs : List Char) : lower (lower cs) = lower cs := by
  rw [lower, lower, List.map_map]
  refine List.map_congr_left fun c _ => ?_
  show c.toLower.toLower = c.toLower
  rw [← Char.toNat_inj, toNat_toLower c.toLower, toNat_toLower]
  split_ifs <;> omega

theorem toLower_eq_iff {c d : Char} (hd : d.isAlpha = false) : c.toLower = d ↔ c = d := by
  have hletter := not_letter_of_isAlpha_eq_false hd
  rw [← Char.toNat_inj, ← Char.toNat_inj, toNat_toLower]
  split_ifs <;> omega

theorem toLower_eq_letter_iff {c d : Char} (hd : d.isLower) :
    c.toLower = d ↔ c = d ∨ c = d.toUpper := by
  rw [isLower_iff] at hd
  rw [← Char.toNat_inj, ← Char.toNat_inj, ← Char.toNat_inj, toNat_toLower, toNat_toUpper, if_pos hd]
  split_ifs <;> omega

/-- A test that answers the same for both cases of a letter. -/
def CaseBlind (p : Char → Bool) : Prop := ∀ c, p c.toLower = p c

theorem caseBlind_isBlank : CaseBlind isBlank := by
  intro c
  by_cases h : 65 ≤ c.toNat ∧ c.toNat ≤ 90
  · have hlower : c.toLower.isAlphanum := by
      rw [isAlphanum_iff, toNat_toLower, if_pos h]
      omega
    have hupper : c.isAlphanum := isAlphanum_iff.2 (Or.inr (Or.inl h))
    rw [not_isBlank_of_isAlphanum hlower, not_isBlank_of_isAlphanum hupper]
  · rw [toLower_of_not_upper h]

/-- No letter is a mark in either case. -/
theorem caseBlind_ne {d : Char} (hd : d.isAlpha = false) : CaseBlind fun c => c ≠ d := by
  intro c
  simp only [ne_eq, toLower_eq_iff hd]

namespace CaseBlind

variable {p : Char → Bool}

theorem comp_toLower (h : CaseBlind p) : p ∘ Char.toLower = p := funext h

theorem takeWhile (h : CaseBlind p) (cs : List Char) :
    (lower cs).takeWhile p = lower (cs.takeWhile p) := by
  rw [lower, List.takeWhile_map, h.comp_toLower, lower]

theorem dropWhile (h : CaseBlind p) (cs : List Char) :
    (lower cs).dropWhile p = lower (cs.dropWhile p) := by
  rw [lower, List.dropWhile_map, h.comp_toLower, lower]

theorem all (h : CaseBlind p) (cs : List Char) : (lower cs).all p = cs.all p := by
  rw [lower, List.all_map, h.comp_toLower]

theorem not (h : CaseBlind p) : CaseBlind fun c => !p c := fun c => congrArg (!·) (h c)

end CaseBlind

theorem reverse_lower (cs : List Char) : (lower cs).reverse = lower cs.reverse :=
  List.map_reverse.symm

theorem isEmpty_lower (cs : List Char) : (lower cs).isEmpty = cs.isEmpty := List.isEmpty_map

theorem trim_lower (cs : List Char) : trim (lower cs) = lower (trim cs) := by
  simp only [trim, trimStart, trimEnd, caseBlind_isBlank.dropWhile, reverse_lower]

theorem firstWord_lower (cs : List Char) :
    firstWord (lower cs) = (lower (firstWord cs).1, lower (firstWord cs).2) := by
  rw [firstWord, caseBlind_isBlank.not.takeWhile, caseBlind_isBlank.not.dropWhile, trim_lower]
  rfl

end FirmScan.Text
