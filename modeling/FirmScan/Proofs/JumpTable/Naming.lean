import FirmScan.JumpTable.Label
import FirmScan.Proofs.Template.Composition

/-!
# Labels tell slots apart

With the patterns that labels have by default, no two slots get the same name or the same comment
unless they are one slot with one target.

**Numerals** (`Format.write_inj`). A number that is filled up with zeros is read back from its text,
whatever the width: a target of more than 32 bits is written with more than eight digits and never
cut.

**Dividing** (`PairPattern.text_inj`). The slot has no fixed width, so where it ends is seen only by
the mark behind it, which is no digit. Then the target is what stands behind the rest of the
separating text.

**Theorem (`default_labels_apart`).** Both default patterns are of this kind.
-/

namespace FirmScan.Template

/-! ## Numerals -/

theorem Format.natural?_write {f : Format} (hf : f.zeroFill = true) (n : Nat) :
    Numeral.natural? f.digits.base (f.write n) = some n := by
  rw [Format.write, hf]
  exact Numeral.natural?_leftpad (Nat.lt_trans Nat.zero_lt_one f.digits.one_lt_base)
    (f.digits.reads_write n) f.width

theorem Format.write_inj {f : Format} (hf : f.zeroFill = true) {m n : Nat}
    (h : f.write m = f.write n) : m = n := by
  have hm := Format.natural?_write hf m
  rw [h, Format.natural?_write hf n] at hm
  exact (Option.some.inj hm).symm

/-! ## A slot and a target -/

/-- Whether a text is free of braces. -/
def isPlain (cs : List Char) : Bool := cs.all fun c => c ≠ '\x7b' && c ≠ '\x7d'

/-- A pattern that shows the slot and the target, both filled up with zeros, and between them a text
that starts with something other than a digit. -/
structure PairPattern where
  front : List Char
  slot : Field
  mark : Char
  gap : List Char
  target : Field
  front_plain : isPlain front = true := by decide
  gap_plain : isPlain (mark :: gap) = true := by decide
  mark_divides : Numeral.isHexDigit mark = false := by decide
  slot_shown : slot.quantity = .slot := by decide
  target_shown : target.quantity = .target := by decide
  slot_filled : slot.format.zeroFill = true := by decide
  target_filled : target.format.zeroFill = true := by decide

namespace PairPattern

def source (p : PairPattern) : List Char :=
  p.front ++ ((Token.field p.slot).source ++ (p.mark :: p.gap ++ (Token.field p.target).source))

/-- The text for a slot and its target. -/
def text (p : PairPattern) (slot : UInt32) (target : Address) : List Char :=
  p.front ++ (p.slot.format.write slot.toNat ++
    (p.mark :: p.gap ++ p.target.format.write target.toNat))

end PairPattern

section Filling

variable {slot : UInt32} {target : Address}

theorem fillText_of_isPlain {cs : List Char} (h : isPlain cs = true) :
    fillText slot target cs = .ok cs := by
  induction cs with
  | nil => rw [fillText]
  | cons c cs ih =>
    rw [isPlain, List.all_cons, Bool.and_eq_true] at h
    have hc : c ≠ '\x7b' ∧ c ≠ '\x7d' := by simpa using h.1
    rw [fillText_plain hc.1 hc.2, ih h.2]
    rfl

theorem fillText_field (f : Field) :
    fillText slot target (Token.field f).source =
      .ok (f.format.write (f.quantity.value slot target)) := by
  have hshows : Token.Shows slot target (.field f)
      (f.format.write (f.quantity.value slot target)) :=
    Format.shows_iff.2 rfl
  have hread := fillText_token hshows []
  rw [List.append_nil, fillText] at hread
  rw [hread, Except.map, List.append_nil]

theorem PairPattern.fillText_source (p : PairPattern) :
    fillText slot target p.source = .ok (p.text slot target) := by
  have hslot : p.slot.quantity.value slot target = slot.toNat := by
    rw [p.slot_shown, Quantity.value]
  have htarget : p.target.quantity.value slot target = target.toNat := by
    rw [p.target_shown, Quantity.value]
  rw [source, fillText_append (fillText_of_isPlain p.front_plain),
    fillText_append (fillText_field p.slot), fillText_append (fillText_of_isPlain p.gap_plain),
    fillText_field p.target, hslot, htarget]
  rfl

end Filling

/-- **The slot and the target are seen in the text.** -/
theorem PairPattern.text_inj (p : PairPattern) {slot slot' : UInt32} {target target' : Address}
    (h : p.text slot target = p.text slot' target') : slot = slot' ∧ target = target' := by
  -- The mark is the first character behind the front that is no digit.
  have hcut (n : Nat) (rest : List Char) :
      Text.cutAt? (fun c => !Numeral.isHexDigit c) (p.slot.format.write n ++ p.mark :: rest) =
        some (p.slot.format.write n, rest) := by
    refine Text.cutAt?_append (fun c hc => ?_) (by rw [p.mark_divides]; rfl) rest
    rw [Numeral.isHexDigit_of_natural? (Format.natural?_write p.slot_filled n) c hc]
    rfl
  have hparts := congrArg (Text.cutAt? fun c => !Numeral.isHexDigit c) (List.append_cancel_left h)
  rw [List.cons_append, List.cons_append, hcut, hcut, Option.some.injEq, Prod.mk.injEq] at hparts
  obtain ⟨hslot, hrest⟩ := hparts
  exact ⟨UInt32.toNat_inj.1 (Format.write_inj p.slot_filled hslot),
    UInt64.toNat_inj.1 (Format.write_inj p.target_filled (List.append_cancel_left hrest))⟩

/-! ## Labels -/

/-- The pattern can be filled in for every slot and target, never with the empty text, and two texts
are equal only if slot and target are. -/
structure TellsApart (pattern : String) : Prop where
  filled : ∀ (slot : UInt32) (target : Address),
    ∃ text, fill pattern slot target = .ok text ∧ text ≠ ""
  apart : ∀ (slot slot' : UInt32) (target target' : Address) (text : String),
    fill pattern slot target = .ok text → fill pattern slot' target' = .ok text →
    slot = slot' ∧ target = target'

theorem PairPattern.tellsApart {p : PairPattern} {pattern : String}
    (h : pattern.toList = p.source) :
    TellsApart pattern where
  filled slot target := by
    refine ⟨String.ofList (p.text slot target), ?_, ?_⟩
    · rw [fill_eq_ok_iff, h, p.fillText_source, String.toList_ofList]
    · intro hempty
      have hnil := congrArg String.toList hempty
      simp [text] at hnil
  apart slot slot' target target' text hfill hfill' := by
    rw [fill_eq_ok_iff, h, p.fillText_source, Except.ok.injEq] at hfill hfill'
    exact p.text_inj (hfill.trans hfill'.symm)

theorem Quantity.trim_name (q : Quantity) : Text.trim q.name = q.name := by
  cases q <;> decide

/-- The field of a quantity with nothing around its name. -/
def Quantity.field (q : Quantity) (spec : Option Spec) : Field := ⟨q, q.name, q.trim_name, spec⟩

/-- Eight digits at least, in upper case: `08X`. -/
def Spec.eightUpper : Spec where
  run := ['0', '8']
  digits := some .upperHex
  isDigit := by simp
  narrow := by decide

/-- `jt_case_`, the slot, `_`, the target. -/
def defaultName : PairPattern where
  front := "jt_case_".toList
  slot := Quantity.slot.field none
  mark := '_'
  gap := []
  target := Quantity.target.field none

/-- `jump table slot `, the slot, ` -> 0x`, the target. -/
def defaultComment : PairPattern where
  front := "jump table slot ".toList
  slot := Quantity.slot.field none
  mark := ' '
  gap := "-> 0x".toList
  target := Quantity.target.field (some .eightUpper)

/-- **Default labels never collide.** -/
theorem default_labels_apart :
    TellsApart ({} : LabelOptions).namePattern ∧ TellsApart ({} : LabelOptions).commentPattern :=
  ⟨defaultName.tellsApart rfl, defaultComment.tellsApart rfl⟩

end FirmScan.Template
