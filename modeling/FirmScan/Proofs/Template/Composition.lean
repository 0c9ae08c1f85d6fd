import FirmScan.Proofs.Template.Grammar

/-!
# Patterns one after another

A pattern that can be filled in may be followed by any other, and any text can be written as a
pattern.

**Following** (`fill_append`). A pattern is scanned with one character of lookahead, and a field is
read up to the next closing brace, so the end of one pattern might run into the start of the next.
It does not: what can be filled in is a sequence of tokens, and tokens are read alike whatever
follows them. A pattern that ends in the middle of a token cannot be filled in at all.

**Escaping** (`fill_escape`). With every brace doubled a text stands for itself.

**Theorem (`fill_composes`)** has both.
-/

namespace FirmScan.Template

/-! ## Following -/

variable {slot : UInt32} {target : Address}

theorem fillText_append {cs text : List Char} (h : fillText slot target cs = .ok text)
    (rest : List Char) :
    fillText slot target (cs ++ rest) = (fillText slot target rest).map (text ++ ·) := by
  obtain ⟨tokens, rfl, hshown⟩ := exists_showAll_of_fillText h
  exact fillText_append_of_showAll hshown rest

/-- What a pattern gives goes in front of what the next one gives, and a fault of the next one stays
as it is. -/
theorem fill_append {p x : String} (h : fill p slot target = .ok x) (q : String) :
    fill (p ++ q) slot target = (fill q slot target).map (x ++ ·) := by
  have hread := fillText_append (fill_eq_ok_iff.1 h) q.toList
  rw [fill, String.toList_append, hread, fill]
  cases fillText slot target q.toList with
  | error field => rfl
  | ok text =>
    refine congrArg Except.ok (String.toList_injective ?_)
    simp

/-! ## Escaping -/

/-- A character with its double behind it if it is a brace. -/
def escapeChar (c : Char) : List Char := if c = '\x7b' || c = '\x7d' then [c, c] else [c]

/-- The text with every brace doubled. -/
def escape (s : String) : String := String.ofList (s.toList.flatMap escapeChar)

theorem fillText_escapeChar (c : Char) (rest : List Char) :
    fillText slot target (escapeChar c ++ rest) = (fillText slot target rest).map (c :: ·) := by
  by_cases hopen : c = '\x7b'
  · subst hopen
    show fillText slot target ('\x7b' :: '\x7b' :: rest) = _
    rw [fillText]
  · by_cases hclose : c = '\x7d'
    · subst hclose
      show fillText slot target ('\x7d' :: '\x7d' :: rest) = _
      rw [fillText]
    · have hplain : escapeChar c = [c] := by simp [escapeChar, hopen, hclose]
      rw [hplain]
      exact fillText_plain hopen hclose rest

theorem fillText_flatMap_escapeChar (cs : List Char) :
    fillText slot target (cs.flatMap escapeChar) = .ok cs := by
  induction cs with
  | nil => rw [List.flatMap_nil, fillText]
  | cons c cs ih =>
    rw [List.flatMap_cons, fillText_escapeChar, ih]
    rfl

/-- A text with its braces doubled stands for the text. -/
theorem fill_escape (s : String) : fill (escape s) slot target = .ok s := by
  rw [fill_eq_ok_iff, escape, String.toList_ofList, fillText_flatMap_escapeChar]

/-- **Patterns compose, and escaping is exact.** -/
theorem fill_composes (slot : UInt32) (target : Address) :
    (∀ p q x : String, fill p slot target = .ok x →
      (∀ y, fill q slot target = .ok y → fill (p ++ q) slot target = .ok (x ++ y)) ∧
      ∀ problem, fill q slot target = .error problem → fill (p ++ q) slot target = .error problem) ∧
    ∀ s : String, fill (escape s) slot target = .ok s := by
  refine ⟨fun p q x hp => ⟨fun y hq => ?_, fun problem hq => ?_⟩, fill_escape⟩
  · rw [fill_append hp, hq]
    rfl
  · rw [fill_append hp, hq]
    rfl

-- The brace that closes the field does not pair with the two behind it.
example : fill ("\x7bslot\x7d" ++ "\x7d\x7d\x7btarget:x\x7d") 7 0x8000 = .ok "7\x7d8000" := by
  decide

end FirmScan.Template
