import FirmScan.Proofs.Numeral
import FirmScan.Template

/-!
# Fields of a pattern

A field names a quantity and may say how to write it. This file gives the fields as a grammar of
their own, and compares it with what is read between braces.

**Numerals** (`Digits.Spells`). The number that is read back in the base, without a zero in front,
and with letters of one case. There is one such numeral, and it is the one that is written
(`Digits.spells_iff`).

**Formats** (`Spec`). Digits for the width, at most 64, and a letter or none. A format is read
exactly if it is spelled so (`format?_eq_some_iff`).

**Fields** (`Field`). The name of a quantity with blanks around it, and a format or none. A field
has a text exactly if it is spelled so, and the text shows the quantity in its format
(`fieldText_eq_ok_iff`).
-/

namespace FirmScan.Template

/-! ## Numerals -/

namespace Digits

def base : Digits → Nat
  | .decimal => 10
  | .lowerHex => 16
  | .upperHex => 16

/-- Whether a character is of the right case. -/
def allows : Digits → Char → Bool
  | .decimal, _ => true
  | .lowerHex, c => !c.isUpper
  | .upperHex, c => !c.isLower

/-- The numeral of a number. -/
structure Spells (d : Digits) (n : Nat) (ds : List Char) : Prop where
  reads : Numeral.natural? d.base ds = some n
  shortest : Numeral.Shortest ds
  letters : ∀ c ∈ ds, d.allows c

/-- The case in which the digits of the library are written. -/
def spelling : Digits → Char → Char
  | .decimal => id
  | .lowerHex => id
  | .upperHex => Char.toUpper

theorem write_eq_map (d : Digits) (n : Nat) :
    d.write n = (Nat.toDigits d.base n).map d.spelling := by
  cases d with
  | decimal => exact (List.map_id _).symm
  | lowerHex => exact (List.map_id _).symm
  | upperHex => rfl

theorem one_lt_base (d : Digits) : 1 < d.base := by
  cases d <;> decide

theorem base_le (d : Digits) : d.base ≤ 16 := by
  cases d <;> decide

theorem spelling_zero (d : Digits) : d.spelling '0' = '0' := by
  cases d <;> decide

theorem eq_zero_of_spelling (d : Digits) :
    ∀ k < d.base, d.spelling (Nat.digitChar k) = '0' → k = 0 := by
  cases d <;> decide

theorem allows_spelling (d : Digits) : ∀ k < d.base, d.allows (d.spelling (Nat.digitChar k)) := by
  cases d <;> decide

theorem toNat_digitChar :
    ∀ k < 16, (Nat.digitChar k).toNat = if k < 10 then 48 + k else 87 + k := by
  decide

/-- A digit of the right case is spelled as it is written. -/
theorem eq_spelling {d : Digits} {c : Char} {k : Nat} (hc : d.allows c)
    (hk : Numeral.digitIn? d.base c = some k) :
    c = d.spelling (Nat.digitChar k) := by
  obtain ⟨hdigit, hlt⟩ := Option.filter_eq_some_iff.1 hk
  have hlt : k < d.base := of_decide_eq_true hlt
  have hchar := toNat_digitChar k (Nat.lt_of_lt_of_le hlt d.base_le)
  rw [Numeral.digit?_eq_some_iff] at hdigit
  apply Char.toNat_inj.1
  cases d with
  | decimal =>
    simp only [base] at hlt
    simp only [spelling, id, hchar]
    split <;> omega
  | lowerHex =>
    have hcase : ¬ c.isUpper := by simpa [allows] using hc
    rw [Text.isUpper_iff] at hcase
    simp only [spelling, id, hchar]
    split <;> omega
  | upperHex =>
    have hcase : ¬ c.isLower := by simpa [allows] using hc
    rw [Text.isLower_iff] at hcase
    simp only [spelling, Text.toNat_toUpper, hchar]
    split <;> split <;> omega

theorem reads_write (d : Digits) (n : Nat) : Numeral.natural? d.base (d.write n) = some n := by
  cases d with
  | decimal => exact Numeral.natural?_decimal n
  | lowerHex => exact Numeral.natural?_lowerHex n
  | upperHex => exact Numeral.natural?_upperHex n

/-- **A number has one numeral**, the one that is written. -/
theorem spells_iff {d : Digits} {n : Nat} {ds : List Char} : d.Spells n ds ↔ ds = d.write n := by
  constructor
  · intro h
    rw [write_eq_map]
    exact Numeral.eq_map_toDigits d.one_lt_base d.spelling_zero h.reads h.shortest fun c hc k hk =>
      eq_spelling (h.letters c hc) hk
  · intro h
    subst h
    refine ⟨d.reads_write n, ?_, ?_⟩
    · rw [write_eq_map]
      exact Numeral.shortest_map_toDigits d.one_lt_base d.base_le d.spelling_zero
        d.eq_zero_of_spelling n
    · rw [write_eq_map]
      intro c hc
      obtain ⟨digit, hdigit, rfl⟩ := List.mem_map.1 hc
      obtain ⟨k, hk, rfl⟩ := Numeral.exists_of_mem_toDigits d.one_lt_base hdigit
      exact d.allows_spelling k hk

end Digits

/-- The text of a number in a format: its numeral, with enough of the filling in front for the
width. -/
def Format.Shows (f : Format) (n : Nat) (text : List Char) : Prop :=
  ∃ ds, f.digits.Spells n ds ∧
    text = List.replicate (f.width - ds.length) (if f.zeroFill then '0' else ' ') ++ ds

theorem Format.shows_iff {f : Format} {n : Nat} {text : List Char} :
    f.Shows n text ↔ text = f.write n := by
  simp only [Shows, Digits.spells_iff, exists_eq_left]
  rfl

/-! ## Formats -/

/-- The letter that asks for digits of a kind. -/
def Digits.letter : Digits → Char
  | .decimal => 'd'
  | .lowerHex => 'x'
  | .upperHex => 'X'

/-- The number that a run of decimal digits spells, 0 if it is empty. -/
def runValue (cs : List Char) : Nat := Numeral.ofDigits 10 (cs.map fun c => c.toNat - 48)

/-- A format as it is spelled: a run of digits, empty or not, and a letter or none. -/
structure Spec where
  run : List Char
  digits : Option Digits
  isDigit : ∀ c ∈ run, c.isDigit
  narrow : runValue run ≤ 64

namespace Spec

def source (x : Spec) : List Char := x.run ++ (x.digits.map Digits.letter).toList

/-- Without a letter a number is decimal. It is filled up with zeros if the spelling starts with
one. -/
def format (x : Spec) : Format :=
  ⟨x.digits.getD .decimal, x.source.head? = some '0', runValue x.run⟩

end Spec

theorem digitIn?_ten_of_isDigit {c : Char} (h : c.isDigit) :
    Numeral.digitIn? 10 c = some (c.toNat - 48) := by
  have hrange := Text.isDigit_iff.1 h
  have hdigit : Numeral.digit? c = some (c.toNat - 48) := by
    rw [Numeral.digit?_eq_some_iff]
    omega
  rw [Numeral.digitIn?, hdigit, Option.filter_some, if_pos (by simp; omega)]

theorem isDigit_of_digitIn?_ten {c : Char} {d : Nat} (h : Numeral.digitIn? 10 c = some d) :
    c.isDigit := by
  obtain ⟨hdigit, hlt⟩ := Option.filter_eq_some_iff.1 h
  have hlt : d < 10 := of_decide_eq_true hlt
  rw [Numeral.digit?_eq_some_iff] at hdigit
  rw [Text.isDigit_iff]
  omega

theorem mapM_digitIn?_of_isDigit {cs : List Char} (h : ∀ c ∈ cs, c.isDigit) :
    cs.mapM (Numeral.digitIn? 10) = some (cs.map fun c => c.toNat - 48) := by
  induction cs with
  | nil => rfl
  | cons c cs ih =>
    obtain ⟨hc, hcs⟩ := List.forall_mem_cons.1 h
    rw [List.mapM_cons, digitIn?_ten_of_isDigit hc, ih hcs]
    rfl

theorem isDigit_of_mapM_digitIn? {cs : List Char} {ds : List Nat}
    (h : cs.mapM (Numeral.digitIn? 10) = some ds) :
    ∀ c ∈ cs, c.isDigit := by
  induction cs generalizing ds with
  | nil => simp
  | cons c cs ih =>
    simp only [List.mapM_cons, Option.bind_eq_bind, Option.bind_eq_some_iff] at h
    obtain ⟨d, hd, rest, hrest, -⟩ := h
    exact List.forall_mem_cons.2 ⟨isDigit_of_digitIn?_ten hd, ih hrest⟩

theorem natural?_ten_iff {cs : List Char} {n : Nat} :
    Numeral.natural? 10 cs = some n ↔ cs ≠ [] ∧ (∀ c ∈ cs, c.isDigit) ∧ runValue cs = n := by
  rw [Numeral.natural?_eq_some_iff]
  refine and_congr_right fun _ => ⟨fun h => ?_, fun h => ?_⟩
  · obtain ⟨ds, hds, hn⟩ := h
    have hdigits := isDigit_of_mapM_digitIn? hds
    rw [mapM_digitIn?_of_isDigit hdigits, Option.some.injEq] at hds
    exact ⟨hdigits, by rw [runValue, hds, hn]⟩
  · exact ⟨_, mapM_digitIn?_of_isDigit h.1, h.2⟩

/-- A width is a run of digits with a small value. -/
theorem width?_eq_some_iff {cs : List Char} {n : Nat} :
    width? cs = some n ↔ (∀ c ∈ cs, c.isDigit) ∧ runValue cs = n ∧ n ≤ 64 := by
  by_cases hnil : cs = []
  · subst hnil
    have hzero : runValue [] = 0 := rfl
    simp only [width?, List.isEmpty_nil, if_true, Option.some.injEq, hzero, List.not_mem_nil,
      false_implies, implies_true, true_and]
    omega
  · rw [width?, if_neg (by simpa using hnil), Option.filter_eq_some_iff, natural?_ten_iff]
    exact ⟨fun h => ⟨h.1.2.1, h.1.2.2, of_decide_eq_true h.2⟩,
      fun h => ⟨⟨hnil, h.1, h.2.1⟩, decide_eq_true h.2.2⟩⟩

/-- A format is split before its last character if that is a letter. -/
theorem splitFormat_cases (cs : List Char) :
    ∃ digits : Option Digits, cs = (splitFormat cs).1 ++ (digits.map Digits.letter).toList ∧
      digits.getD .decimal = (splitFormat cs).2 := by
  have hlast {c : Char} (h : cs.getLast? = some c) : cs = cs.dropLast ++ [c] := by
    obtain ⟨body, rfl⟩ := List.getLast?_eq_some_iff.1 h
    rw [List.dropLast_concat]
  unfold splitFormat
  split
  case h_1 h => exact ⟨some .lowerHex, hlast h, rfl⟩
  case h_2 h => exact ⟨some .upperHex, hlast h, rfl⟩
  case h_3 h => exact ⟨some .decimal, hlast h, rfl⟩
  case h_4 => exact ⟨none, (List.append_nil cs).symm, rfl⟩

namespace Spec

theorem splitFormat_source (x : Spec) : splitFormat x.source = (x.run, x.digits.getD .decimal) := by
  obtain ⟨run, digits, hdigit, hnarrow⟩ := x
  cases digits with
  | none =>
    have hlast {c : Char} (hc : run.getLast? = some c) : c.isDigit :=
      hdigit c (List.mem_of_getLast? hc)
    simp only [source, Option.map_none, Option.toList_none, List.append_nil, splitFormat]
    split
    case h_1 h => exact absurd (hlast h) (by decide)
    case h_2 h => exact absurd (hlast h) (by decide)
    case h_3 h => exact absurd (hlast h) (by decide)
    case h_4 => rfl
  | some d =>
    simp only [source, splitFormat, Option.map_some, Option.toList_some, List.getLast?_concat,
      List.dropLast_concat]
    cases d <;> rfl

/-- No letter is a zero. -/
theorem head?_source_iff (x : Spec) : x.source.head? = some '0' ↔ x.run.head? = some '0' := by
  rw [source, List.head?_append]
  cases x.run.head? with
  | some c => rfl
  | none => rcases x.digits with - | - | - | - <;> decide

end Spec

theorem format?_eq (cs : List Char) :
    format? cs = (width? (splitFormat cs).1).map fun width =>
      ⟨(splitFormat cs).2, (splitFormat cs).1.head? = some '0', width⟩ := rfl

/-- **A format is read exactly if it is spelled so.** -/
theorem format?_eq_some_iff {cs : List Char} {f : Format} :
    format? cs = some f ↔ ∃ x : Spec, x.source = cs ∧ x.format = f := by
  rw [format?_eq]
  constructor
  · intro h
    obtain ⟨width, hwidth, rfl⟩ := Option.map_eq_some_iff.1 h
    obtain ⟨hdigit, rfl, hnarrow⟩ := width?_eq_some_iff.1 hwidth
    obtain ⟨digits, hcs, hdigits⟩ := splitFormat_cases cs
    let x : Spec := ⟨(splitFormat cs).1, digits, hdigit, hnarrow⟩
    refine ⟨x, hcs.symm, ?_⟩
    simp only [Spec.format, x.head?_source_iff]
    rw [← hdigits]
  · intro h
    obtain ⟨x, rfl, rfl⟩ := h
    have hwidth : width? x.run = some (runValue x.run) :=
      width?_eq_some_iff.2 ⟨x.isDigit, rfl, x.narrow⟩
    rw [x.splitFormat_source]
    simp only [hwidth, Option.map_some, Spec.format, x.head?_source_iff]

/-! ## Fields -/

inductive Quantity where
  | slot
  | target
  deriving DecidableEq, Repr

namespace Quantity

def name : Quantity → List Char
  | .slot => ['s', 'l', 'o', 't']
  | .target => ['t', 'a', 'r', 'g', 'e', 't']

def value (slot : UInt32) (target : Address) : Quantity → Nat
  | .slot => slot.toNat
  | .target => target.toNat

/-- How a quantity is written if the field does not say. -/
def default : Quantity → Format
  | .slot => ⟨.decimal, true, 0⟩
  | .target => ⟨.lowerHex, true, 8⟩

theorem isAlphanum_of_mem_name (q : Quantity) : ∀ c ∈ q.name, c.isAlphanum := by
  cases q <;> simp [name]

end Quantity

variable {slot : UInt32} {target : Address}

theorem field?_name (q : Quantity) :
    field? slot target q.name = some (q.value slot target, q.default) := by
  cases q <;> rfl

theorem eq_of_field? {name : List Char} {found : Nat × Format}
    (h : field? slot target name = some found) :
    ∃ q : Quantity, name = q.name ∧ found = (q.value slot target, q.default) := by
  unfold field? at h
  split at h
  · rename_i hname
    exact ⟨.slot, hname, (Option.some.inj h).symm⟩
  · split at h
    · rename_i hname
      exact ⟨.target, hname, (Option.some.inj h).symm⟩
    · cases h

/-- A field as it is spelled between its braces: a name with blanks around it, and a format behind a
colon or none. -/
structure Field where
  quantity : Quantity
  name : List Char
  named : Text.trim name = quantity.name
  spec : Option Spec

namespace Field

def source (f : Field) : List Char := f.name ++ f.spec.elim [] fun x => ':' :: x.source

def format (f : Field) : Format := f.spec.elim f.quantity.default Spec.format

/-- The text that replaces the field. -/
def Shows (slot : UInt32) (target : Address) (f : Field) (text : List Char) : Prop :=
  f.format.Shows (f.quantity.value slot target) text

theorem blank_or_isAlphanum_of_mem_name (f : Field) {c : Char} (h : c ∈ f.name) :
    Text.isBlank c ∨ c.isAlphanum := by
  cases hblank : Text.isBlank c with
  | true => exact Or.inl rfl
  | false =>
    have hc := Text.mem_trim h hblank
    rw [f.named] at hc
    exact Or.inr (f.quantity.isAlphanum_of_mem_name c hc)

theorem not_mem_name (f : Field) {c : Char} (hblank : Text.isBlank c = false)
    (hc : c.isAlphanum = false) :
    c ∉ f.name := by
  intro h
  rcases f.blank_or_isAlphanum_of_mem_name h with h | h
  · rw [hblank] at h
    cases h
  · rw [hc] at h
    cases h

end Field

theorem Spec.isAlphanum_of_mem_source (x : Spec) {c : Char} (h : c ∈ x.source) : c.isAlphanum := by
  rcases List.mem_append.1 h with h | h
  · have := Text.isDigit_iff.1 (x.isDigit c h)
    rw [Text.isAlphanum_iff]
    exact Or.inl this
  · rcases hdigits : x.digits with - | d
    · simp [hdigits] at h
    · rw [hdigits] at h
      rw [List.mem_singleton.1 h]
      cases d <;> decide

/-- No brace stands in a field. -/
theorem Field.not_mem_source (f : Field) {c : Char} (hblank : Text.isBlank c = false)
    (hc : c.isAlphanum = false) (hcolon : c ≠ ':') : c ∉ f.source := by
  intro h
  rcases List.mem_append.1 h with h | h
  · exact f.not_mem_name hblank hc h
  · rcases hspec : f.spec with - | x
    · simp [hspec] at h
    · rw [hspec] at h
      rcases List.mem_cons.1 h with h | h
      · exact hcolon h
      · rw [x.isAlphanum_of_mem_source h] at hc
        cases hc

theorem cutAt?_source (f : Field) :
    Text.cutAt? (· = ':') f.source = f.spec.map fun x => (f.name, x.source) := by
  have hname : ∀ c ∈ f.name, decide (c = ':') = false := by
    intro c hc
    refine decide_eq_false fun heq => f.not_mem_name (c := ':') (by decide) (by decide) (heq ▸ hc)
  rcases hspec : f.spec with - | x
  · simpa [Field.source, hspec, Text.cutAt?_eq_none_iff] using hname
  · simp only [Field.source, hspec, Option.elim_some, Option.map_some]
    exact Text.cutAt?_append hname (by simp) x.source

/-- **A field has a text exactly if it is spelled so**, and the text shows the quantity. -/
theorem fieldText_eq_ok_iff {cs text : List Char} :
    fieldText slot target cs = .ok text ↔
      ∃ f : Field, f.source = cs ∧ f.Shows slot target text := by
  constructor
  · intro h
    rw [fieldText] at h
    cases hcut : Text.cutAt? (· = ':') cs with
    | none =>
      simp only [hcut] at h
      cases hfield : field? slot target (Text.trim cs) with
      | none => simp [hfield] at h
      | some found =>
        obtain ⟨q, hname, rfl⟩ := eq_of_field? hfield
        simp only [hfield, Except.ok.injEq] at h
        exact ⟨⟨q, cs, hname, none⟩, List.append_nil cs, Format.shows_iff.2 h.symm⟩
    | some parts =>
      obtain ⟨name, spec⟩ := parts
      obtain ⟨d, rfl, hd, -⟩ := Text.eq_append_of_cutAt? hcut
      obtain rfl : d = ':' := by simpa using hd
      simp only [hcut] at h
      cases hfield : field? slot target (Text.trim name) with
      | none => simp [hfield] at h
      | some found =>
        obtain ⟨q, hname, rfl⟩ := eq_of_field? hfield
        cases hformat : format? spec with
        | none => simp [hfield, hformat] at h
        | some format =>
          obtain ⟨x, rfl, rfl⟩ := format?_eq_some_iff.1 hformat
          simp only [hfield, hformat, Except.ok.injEq] at h
          exact ⟨⟨q, name, hname, some x⟩, rfl, Format.shows_iff.2 h.symm⟩
  · rintro ⟨f, rfl, htext⟩
    rw [Field.Shows, Format.shows_iff] at htext
    rw [fieldText, cutAt?_source, htext, Field.format]
    rcases hspec : f.spec with - | x
    · have hsource : f.source = f.name := by simp [Field.source, hspec]
      simp [hsource, f.named, field?_name]
    · have hformat : format? x.source = some x.format := format?_eq_some_iff.2 ⟨x, rfl, rfl⟩
      simp [f.named, field?_name, hformat]

end FirmScan.Template
