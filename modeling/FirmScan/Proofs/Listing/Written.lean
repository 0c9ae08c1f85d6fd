import FirmScan.Proofs.Listing.Scan

/-!
# What is read was written

The converse of `Proofs.Listing.Operand`, for any text: an operand that is read as a literal, as a
place or as a number is spelled in the text as one. The predicates of this file say how.

* `IsLiteral`: `=` and an immediate.
* `IsPlace`: a base in brackets, alone or with an offset.
* `Spells`: somewhere in the text, `=` or `#` directly before a number that is marked as hex.

An operand is a literal, a place or neither (`parse_cases`), and a number that a scan finds is
spelled (`spells_of_scanImmediate?`).
-/

namespace FirmScan.Operand

/-! ## Literals and places -/

/-- The text is `=` and an immediate, whose value as a word is `v`. -/
def IsLiteral (cs : List Char) (v : UInt64) : Prop :=
  ∃ text n, Text.trim cs = '=' :: text ∧ immediate? text = some n ∧ v = n.toUInt64

/-- What stands in brackets is a base and an offset, which is 0 if it is left out. Anything behind
the offset does not count. -/
structure IsDisplaced (inner base : List Char) (offset : Int64) : Prop where
  ne_nil : base ≠ []
  divided : split inner = [base] ∧ offset = 0 ∨
    ∃ second more, split inner = base :: second :: more ∧ markedImmediate? second = some offset

/-- The text starts with brackets around a base and an offset. -/
def IsPlace (cs base : List Char) (offset : Int64) : Prop :=
  ∃ inner rest, Text.trim cs = '[' :: (inner ++ ']' :: rest) ∧ ']' ∉ inner ∧
    IsDisplaced inner base offset

/-- A place is relative to the program counter or to another register. -/
def ofPlace (base : List Char) (offset : Int64) : Operand :=
  if register base = ['P', 'C'] then .pcRelative offset else .baseOffset (register base) offset

theorem ofBrackets_of_isDisplaced {inner base : List Char} {offset : Int64}
    (h : IsDisplaced inner base offset) : ofBrackets inner = ofPlace base offset := by
  rcases h.divided with ⟨hsplit, rfl⟩ | ⟨second, more, hsplit, hoffset⟩
  · simp [ofBrackets, hsplit, h.ne_nil, ofPlace]
  · simp [ofBrackets, hsplit, hoffset, h.ne_nil, ofPlace]

theorem ofBrackets_cases (inner : List Char) :
    ofBrackets inner = .other ∨ ∃ base offset, IsDisplaced inner base offset := by
  cases hsplit : split inner with
  | nil => exact Or.inl (by simp [ofBrackets, hsplit])
  | cons base rest =>
    by_cases hne : base = []
    · left
      cases rest with
      | nil => simp [ofBrackets, hsplit, hne]
      | cons second more => cases h : markedImmediate? second <;> simp [ofBrackets, hsplit, hne, h]
    · cases rest with
      | nil => exact Or.inr ⟨base, 0, hne, Or.inl ⟨hsplit, rfl⟩⟩
      | cons second more =>
        cases hoffset : markedImmediate? second with
        | none => exact Or.inl (by simp [ofBrackets, hsplit, hoffset])
        | some offset => exact Or.inr ⟨base, offset, hne, Or.inr ⟨second, more, hsplit, hoffset⟩⟩

theorem parse_of_isLiteral {cs : List Char} {v : UInt64} (h : IsLiteral cs v) :
    parse cs = .literal v := by
  obtain ⟨text, n, htrim, hn, rfl⟩ := h
  rw [parse, htrim]
  simp only [hn]

theorem parse_of_isPlace {cs base : List Char} {offset : Int64} (h : IsPlace cs base offset) :
    parse cs = ofPlace base offset := by
  obtain ⟨inner, rest, htrim, hinner, hdisplaced⟩ := h
  have hcut : Text.cutAt? (· = ']') (inner ++ ']' :: rest) = some (inner, rest) := by
    refine Text.cutAt?_append (fun c hc => decide_eq_false ?_) rfl rest
    rintro rfl
    exact hinner hc
  rw [parse, htrim]
  simp only [hcut]
  exact ofBrackets_of_isDisplaced hdisplaced

/-- **What an operand can be.** -/
theorem parse_cases (cs : List Char) :
    parse cs = .other ∨ (∃ v, IsLiteral cs v ∧ parse cs = .literal v) ∨
      ∃ base offset, IsPlace cs base offset ∧ parse cs = ofPlace base offset := by
  rw [parse]
  split
  case h_1 text htrim =>
    cases hn : immediate? text with
    | none => exact Or.inl rfl
    | some n => exact Or.inr (Or.inl ⟨n.toUInt64, ⟨text, n, htrim, hn, rfl⟩, rfl⟩)
  case h_2 text htrim =>
    cases hcut : Text.cutAt? (· = ']') text with
    | none => exact Or.inl rfl
    | some parts =>
      obtain ⟨inner, rest⟩ := parts
      rcases ofBrackets_cases inner with hother | ⟨base, offset, hdisplaced⟩
      · exact Or.inl hother
      · obtain ⟨d, rfl, hd, hinner⟩ := Text.eq_append_of_cutAt? hcut
        cases of_decide_eq_true hd
        have hclosed : ']' ∉ inner := fun hmem => absurd (hinner _ hmem) (by simp)
        exact Or.inr (Or.inr ⟨base, offset, ⟨inner, rest, htrim, hclosed, hdisplaced⟩,
          ofBrackets_of_isDisplaced hdisplaced⟩)
  case h_3 => exact Or.inl rfl

theorem isLiteral_of_parse {cs : List Char} {v : UInt64} (h : parse cs = .literal v) :
    IsLiteral cs v := by
  rcases parse_cases cs with hother | ⟨w, hw, hliteral⟩ | ⟨base, offset, -, hplace⟩
  · cases hother.symm.trans h
  · cases hliteral.symm.trans h
    exact hw
  · rw [hplace, ofPlace] at h
    split at h <;> cases h

theorem isPlace_of_parse {cs : List Char} {name : Register} {offset : Int64}
    (h : parse cs = .baseOffset name offset) :
    ∃ base, name = register base ∧ IsPlace cs base offset := by
  rcases parse_cases cs with hother | ⟨w, -, hliteral⟩ | ⟨base, offset', hplace, heq⟩
  · cases hother.symm.trans h
  · cases hliteral.symm.trans h
  · rw [heq, ofPlace] at h
    split at h <;> cases h
    exact ⟨base, rfl, hplace⟩

/-! ## Numbers -/

/-- Somewhere in the text, `=` or `#` stands directly before `0x` and the digits of `v`. -/
def Spells (cs : List Char) (v : UInt64) : Prop :=
  ∃ before mark x digits after, cs = before ++ mark :: '0' :: x :: (digits ++ after) ∧
    (mark = '=' ∨ mark = '#') ∧ (x = 'x' ∨ x = 'X') ∧ Numeral.natural? 16 digits = some v.toNat ∧
    ∀ c, after.head? = some c → Numeral.isHexDigit c = false

/-- A number that a scan finds is spelled in the text. -/
theorem spells_of_scanImmediate? {cs : List Char} {v : UInt64} (h : scanImmediate? cs = some v) :
    Spells cs v := by
  obtain ⟨p, ⟨mark, x, digits, after, hdrop, hspelled⟩, -⟩ := scanImmediate?_eq_some_iff.1 h
  refine ⟨cs.take p, mark, x, digits, after, ?_, hspelled⟩
  rw [← hdrop, List.take_append_drop]

end FirmScan.Operand
