import FirmScan.Proofs.Listing.Division
import FirmScan.Proofs.Numeral

/-!
# Operands are read as they are written

Operands that are written one after the other with commas between them are found again
(`split_intercalate`), provided each stands alone: it is trimmed, and read from depth 0 it meets no
comma at depth 0 and ends there. The rest of the file reads the single operand: a register, an
immediate, a literal or a place in brackets.

A number enters as a run of hex digits `ds` with `Numeral.natural? 16 ds = some n`, so nothing
depends on how the digits are chosen.
-/

namespace FirmScan.Operand

/-! ## Plain characters -/

/-- The characters of names, numbers and literals. -/
def isPlain (c : Char) : Bool := c.isAlphanum || c = '#' || c = '-' || c = '='

theorem isPlain_of_isAlphanum {c : Char} (h : c.isAlphanum) : isPlain c := by
  simp [isPlain, h]

theorem isPlain_of_isHexDigit {c : Char} (h : Numeral.isHexDigit c) : isPlain c :=
  isPlain_of_isAlphanum (Numeral.isAlphanum_of_isHexDigit h)

theorem ne_of_isPlain {c d : Char} (hc : isPlain c) (hd : isPlain d = false) : c ≠ d := by
  intro h
  rw [h, hd] at hc
  cases hc

theorem not_isBlank_of_isPlain {c : Char} (h : isPlain c) : Text.isBlank c = false := by
  simp only [isPlain, Bool.or_eq_true, decide_eq_true_eq] at h
  rcases h with ((h | rfl) | rfl) | rfl
  · exact Text.not_isBlank_of_isAlphanum h
  · decide
  · decide
  · decide

theorem trim_of_isPlain {w : List Char} (h : ∀ c ∈ w, isPlain c) : Text.trim w = w :=
  Text.trim_of_forall fun c hc => not_isBlank_of_isPlain (h c hc)

theorem nesting_of_isPlain {c : Char} (h : isPlain c) : nesting c = 0 := by
  simp [nesting, ne_of_isPlain h (d := '[') rfl, ne_of_isPlain h (d := '\x7b') rfl,
    ne_of_isPlain h (d := ']') rfl, ne_of_isPlain h (d := '\x7d') rfl]

/-! ## Operands that stand alone -/

theorem depthAfter?_brackets {inner : List Char} (h : ∀ c ∈ inner, nesting c = 0) :
    depthAfter? 0 ('[' :: inner ++ [']']) = some 0 := by
  have hinner : depthAfter? 1 inner = some 1 := depthAfter?_level h (.inl (by decide))
  show depthAfter? 1 (inner ++ [']']) = some 0
  rw [depthAfter?_append hinner]
  rfl

theorem trim_brackets (inner : List Char) :
    Text.trim ('[' :: inner ++ [']']) = '[' :: inner ++ [']'] := by
  refine Text.trim_of_ends (fun c hc => ?_) (fun c hc => ?_)
  · cases hc
    decide
  · rw [List.getLast?_concat] at hc
    cases hc
    decide

/-- A text that is one operand, wherever it stands. -/
structure StandsAlone (w : List Char) : Prop where
  ne_nil : w ≠ []
  trimmed : Text.trim w = w
  undivided : depthAfter? 0 w = some 0

theorem standsAlone_of_isPlain {w : List Char} (hne : w ≠ []) (h : ∀ c ∈ w, isPlain c) :
    StandsAlone w where
  ne_nil := hne
  trimmed := trim_of_isPlain h
  undivided := depthAfter?_level (fun c hc => nesting_of_isPlain (h c hc))
    (.inr fun hc => absurd (h ',' hc) (by decide))

theorem standsAlone_brackets {inner : List Char} (h : ∀ c ∈ inner, nesting c = 0) :
    StandsAlone ('[' :: inner ++ [']']) where
  ne_nil := by simp
  trimmed := trim_brackets inner
  undivided := depthAfter?_brackets h

theorem joined_intercalate (operands : List (List Char)) :
    Joined operands ([','].intercalate operands) := by
  induction operands with
  | nil => exact .nil
  | cons w ws ih =>
    cases ws with
    | nil =>
      rw [List.intercalate_singleton]
      exact .last w
    | cons w' ws =>
      rw [List.intercalate_cons_cons, List.append_assoc]
      exact .cons w [] [] (List.forall_mem_nil _) (List.forall_mem_nil _) ih

theorem divisible_of_standsAlone {operands : List (List Char)} (h : ∀ w ∈ operands, StandsAlone w) :
    Divisible counterZero operands where
  ne_nil := fun w hw => (h w hw).ne_nil
  trimmed := fun w hw => (h w hw).trimmed
  uncut := fun w hw => (depthAfter?_eq_some_iff.1 (h w hw).undivided).1
  level := fun w hw =>
    decide_eq_true (depthAfter?_eq_some_iff.1 (h w (List.dropLast_subset _ hw)).undivided).2

theorem eq_comma_or_of_mem_intercalate {operands : List (List Char)} {c : Char}
    (hc : c ∈ [','].intercalate operands) : c = ',' ∨ ∃ w ∈ operands, c ∈ w := by
  by_cases h : c = ','
  · exact .inl h
  · exact .inr ((Text.mem_intercalate_iff h).1 hc)

/-- **Operands with commas between them are found again.** -/
theorem split_intercalate {operands : List (List Char)} (h : ∀ w ∈ operands, StandsAlone w) :
    split ([','].intercalate operands) = operands :=
  split_of_joined (joined_intercalate operands) (divisible_of_standsAlone h)

/-! ## Single operands -/

theorem register_of_isAlphanum {w : List Char} (h : ∀ c ∈ w, c.isAlphanum) :
    register w = Text.upper w := by
  have htrim : Text.trim w = w :=
    Text.trim_of_forall fun c hc => Text.not_isBlank_of_isAlphanum (h c hc)
  have hmark : w.reverse.dropWhile (· = '!') = w.reverse := by
    refine Text.dropWhile_of_head fun c hc => ?_
    have hmem : c ∈ w := List.mem_reverse.1 (List.mem_of_mem_head? hc)
    exact decide_eq_false (Text.ne_of_isAlphanum (h c hmem) rfl)
  rw [register, htrim, hmark, List.reverse_reverse]

section Numbers

variable {ds : List Char} {n : Nat}

theorem isPlain_of_natural? (h : Numeral.natural? 16 ds = some n) : ∀ c ∈ ds, isPlain c :=
  fun c hc => isPlain_of_isHexDigit (Numeral.isHexDigit_of_natural? h c hc)

theorem isPlain_marked (h : Numeral.natural? 16 ds = some n) :
    ∀ c ∈ '0' :: 'x' :: ds, isPlain c := by
  intro c hc
  rw [List.mem_cons, List.mem_cons] at hc
  rcases hc with rfl | rfl | hc
  · decide
  · decide
  · exact isPlain_of_natural? h c hc

theorem magnitude?_hex (h : Numeral.natural? 16 ds = some n) (hn : n < 2 ^ 63) :
    magnitude? ('0' :: 'x' :: ds) = some (Int64.ofInt n) := by
  have hafter : Text.after? ['0', 'x'] ('0' :: 'x' :: ds) = some ds := Text.after?_append _ _
  rw [magnitude?, hafter]
  exact Numeral.signed64?_of_natural? h hn

theorem immediate?_hex (h : Numeral.natural? 16 ds = some n) (hn : n < 2 ^ 63) :
    immediate? ('0' :: 'x' :: ds) = some (Int64.ofInt n) := by
  have hafter : Text.after? ['#'] ('0' :: 'x' :: ds) = none := Text.after?_eq_none (by simp)
  simp only [immediate?, trim_of_isPlain (isPlain_marked h), hafter, Option.getD_none]
  exact magnitude?_hex h hn

theorem immediate?_neg_hex (h : Numeral.natural? 16 ds = some n) (hn : n < 2 ^ 63) :
    immediate? ('-' :: '0' :: 'x' :: ds) = some (Int64.ofInt (-n)) := by
  have hplain : ∀ c ∈ '-' :: '0' :: 'x' :: ds, isPlain c :=
    List.forall_mem_cons.2 ⟨by decide, isPlain_marked h⟩
  have hafter : Text.after? ['#'] ('-' :: '0' :: 'x' :: ds) = none := Text.after?_eq_none (by simp)
  simp only [immediate?, trim_of_isPlain hplain, hafter, Option.getD_none, magnitude?_hex h hn,
    Int64.ofInt_neg]
  rfl

theorem parse_literal (h : Numeral.natural? 16 ds = some n) (hn : n < 2 ^ 63) :
    parse ('=' :: '0' :: 'x' :: ds) = .literal (UInt64.ofNat n) := by
  have hplain : ∀ c ∈ '=' :: '0' :: 'x' :: ds, isPlain c :=
    List.forall_mem_cons.2 ⟨by decide, isPlain_marked h⟩
  simp only [parse, trim_of_isPlain hplain, immediate?_hex h hn, Int64.ofInt_eq_ofNat,
    Int64.toUInt64_ofNat']

end Numbers

/-- The mark is left out. -/
theorem markedImmediate?_mark {w : List Char} (h : ∀ c ∈ w, isPlain c) (hw : w.head? ≠ some '#') :
    markedImmediate? ('#' :: w) = immediate? w := by
  have hmarked : ∀ c ∈ '#' :: w, isPlain c := List.forall_mem_cons.2 ⟨by decide, h⟩
  have hstart : (Text.trimStart ('#' :: w)).head? = some '#' := rfl
  have hafter : Text.after? ['#'] ('#' :: w) = some w := Text.after?_append _ _
  have hnone : Text.after? ['#'] w = none := by
    refine Text.after?_eq_none fun hmark => hw ?_
    obtain ⟨rest, rfl⟩ := hmark
    rfl
  simp only [markedImmediate?, hstart, immediate?, trim_of_isPlain hmarked, trim_of_isPlain h,
    hafter, hnone, Option.getD_some, Option.getD_none, if_true]

/-- **A place in brackets** is relative to the program counter or to another register. -/
theorem parse_brackets {base offset : List Char} {n : Int64} (hne : base ≠ [])
    (hbase : ∀ c ∈ base, c.isAlphanum) (hoffset : ∀ c ∈ offset, isPlain c)
    (h : markedImmediate? offset = some n) :
    parse ('[' :: (base ++ ',' :: offset) ++ [']']) =
      if Text.upper base = ['P', 'C'] then .pcRelative n else .baseOffset (Text.upper base) n := by
  have hplain : ∀ c ∈ base, isPlain c := fun c hc => isPlain_of_isAlphanum (hbase c hc)
  have hne' : offset ≠ [] := by
    intro hnil
    subst hnil
    cases h
  have hsplit : split (base ++ ',' :: offset) = [base, offset] := by
    have halone : ∀ w ∈ [base, offset], StandsAlone w := by
      simp [standsAlone_of_isPlain hne hplain, standsAlone_of_isPlain hne' hoffset]
    have := split_intercalate halone
    rwa [List.intercalate_cons_cons, List.intercalate_singleton, List.append_assoc,
      List.singleton_append] at this
  have hcut : Text.cutAt? (· = ']') (base ++ ',' :: offset ++ [']']) =
      some (base ++ ',' :: offset, []) := by
    refine Text.cutAt?_append (fun c hc => decide_eq_false ?_) rfl []
    rcases List.mem_append.1 hc with hc | hc
    · exact ne_of_isPlain (hplain c hc) rfl
    · rcases List.mem_cons.1 hc with rfl | hc
      · decide
      · exact ne_of_isPlain (hoffset c hc) rfl
  rw [parse, trim_brackets]
  simp only [List.cons_append, hcut, ofBrackets, hsplit, h, register_of_isAlphanum hbase]
  rw [if_neg (by simpa using hne)]

/-! ## Scanning -/

/-- A name has no mark that could announce a number. -/
theorem ne_mark_of_isAlphanum {c : Char} (h : c.isAlphanum) : c ≠ '=' ∧ c ≠ '#' :=
  ⟨Text.ne_of_isAlphanum h rfl, Text.ne_of_isAlphanum h rfl⟩

theorem scanImmediate?_append {w : List Char} (hw : ∀ c ∈ w, c ≠ '=' ∧ c ≠ '#') (rest : List Char) :
    scanImmediate? (w ++ rest) = scanImmediate? rest := by
  induction w with
  | nil => rfl
  | cons c w ih =>
    obtain ⟨hc, hw⟩ := List.forall_mem_cons.1 hw
    rw [List.cons_append, scanImmediate?, if_neg (by simp [hc]), ih hw]

theorem scanImmediate?_eq_none {w : List Char} (hw : ∀ c ∈ w, c ≠ '=' ∧ c ≠ '#') :
    scanImmediate? w = none := by
  have := scanImmediate?_append hw []
  rwa [List.append_nil] at this

/-- The run of digits ends where they end. -/
theorem takeWhile_digits {ds : List Char} {n : Nat} (h : Numeral.natural? 16 ds = some n)
    {rest : List Char} (hrest : ∀ c, rest.head? = some c → Numeral.isHexDigit c = false) :
    (ds ++ rest).takeWhile Numeral.isHexDigit = ds := by
  rw [List.takeWhile_append_of_pos (Numeral.isHexDigit_of_natural? h)]
  cases rest with
  | nil => simp
  | cons c rest => simp [hrest c rfl]

theorem scanImmediate?_hex {ds : List Char} {n : Nat} (h : Numeral.natural? 16 ds = some n)
    (hn : n < 2 ^ 64) {rest : List Char}
    (hrest : ∀ c, rest.head? = some c → Numeral.isHexDigit c = false) :
    scanImmediate? ('#' :: '0' :: 'x' :: (ds ++ rest)) = some (UInt64.ofNat n) := by
  simp [scanImmediate?, hexAt?, takeWhile_digits h hrest, Numeral.unsigned64?_of_natural? h hn]

end FirmScan.Operand
