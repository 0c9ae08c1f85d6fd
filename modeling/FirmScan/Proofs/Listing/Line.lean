import FirmScan.Listing.Line
import FirmScan.Proofs.Numeral
import Mathlib.Data.List.TakeWhile

/-!
# Lines are read as they are written

A line that is written as an address in hex, a colon, a blank, a word, a blank and some operands is
read as a datum or as an instruction at that address (`parse?_line`): which of the two is a matter
of the word and the operands alone.
-/

namespace FirmScan.Line

/-! ## The address -/

theorem splitAddress?_append {w : List Char} (hw : ':' ∉ w) (seen rest : List Char) :
    splitAddress? seen (w ++ rest) = splitAddress? (w.reverse ++ seen) rest := by
  induction w generalizing seen with
  | nil => rfl
  | cons c w ih =>
    rw [List.mem_cons, not_or] at hw
    rw [List.cons_append, splitAddress?, if_neg (by simp [Ne.symm hw.1]), ih hw.2,
      List.reverse_cons, List.append_assoc]
    rfl

section Digits

variable {ds : List Char} {n : Nat}

theorem not_mem_of_natural? (h : Numeral.natural? 16 ds = some n) {c : Char}
    (hc : Numeral.isHexDigit c = false) : c ∉ ds := by
  intro hmem
  rw [Numeral.isHexDigit_of_natural? h c hmem] at hc
  cases hc

/-- The address is what its own last colon leaves. -/
theorem addressIn?_of_last {cs : List Char}
    (hlast : (Text.trim cs).reverse.takeWhile (· ≠ ':') = ds.reverse)
    (h : Numeral.natural? 16 ds = some n) (hn : n < 2 ^ 64) :
    addressIn? cs = some (UInt64.ofNat n) := by
  -- no mark stands in front, for `x` is no digit
  have hmark {x : Char} (hx : Numeral.isHexDigit x = false) : Text.after? ['0', x] ds = none :=
    Text.after?_of_not_mem (by simp) (not_mem_of_natural? h hx)
  simp only [addressIn?, hlast, List.reverse_reverse, hmark (x := 'x') rfl, hmark (x := 'X') rfl,
    Option.or_none, Option.getD_none]
  exact Numeral.unsigned64?_of_natural? h hn

theorem takeWhile_reverse_of_natural? (h : Numeral.natural? 16 ds = some n) (cs : List Char) :
    (ds.reverse ++ cs).takeWhile (· ≠ ':') = ds.reverse ++ cs.takeWhile (· ≠ ':') := by
  refine List.takeWhile_append_of_pos fun c hc => decide_eq_true ?_
  rintro rfl
  exact not_mem_of_natural? h rfl (List.mem_reverse.1 hc)

theorem not_isBlank_of_natural? (h : Numeral.natural? 16 ds = some n) :
    ∀ c ∈ ds, Text.isBlank c = false := fun c hc =>
  Text.not_isBlank_of_isAlphanum (Numeral.isAlphanum_of_natural? h c hc)

theorem addressIn?_of_natural? (h : Numeral.natural? 16 ds = some n) (hn : n < 2 ^ 64) :
    addressIn? ds = some (UInt64.ofNat n) := by
  refine addressIn?_of_last ?_ h hn
  rw [Text.trim_of_forall (not_isBlank_of_natural? h)]
  simpa using takeWhile_reverse_of_natural? h []

/-- A segment name stands before the address. -/
theorem addressIn?_segment (h : Numeral.natural? 16 ds = some n) (hn : n < 2 ^ 64)
    (name : List Char) :
    addressIn? (name ++ ':' :: ds) = some (UInt64.ofNat n) := by
  have htight : Text.Tight (':' :: ds) :=
    .of_forall (by simp) (List.forall_mem_cons.2 ⟨by decide, not_isBlank_of_natural? h⟩)
  refine addressIn?_of_last ?_ h hn
  rw [Text.trim_append htight, List.reverse_append, List.reverse_cons, List.append_assoc,
    takeWhile_reverse_of_natural? h]
  simp

/-- A colon with a digit behind it is passed over. -/
theorem splitAddress?_colon (h : Numeral.natural? 16 ds = some n) (seen rest : List Char) :
    splitAddress? seen (':' :: (ds ++ rest)) = splitAddress? (ds.reverse ++ ':' :: seen) rest := by
  rw [← splitAddress?_append (not_mem_of_natural? h rfl)]
  obtain ⟨hne, -⟩ := Numeral.natural?_eq_some_iff.1 h
  obtain ⟨c, cs, rfl⟩ := List.exists_cons_of_ne_nil hne
  have hc := Numeral.isAlphanum_of_natural? h c List.mem_cons_self
  have hblank : Text.isAsciiBlank c = false := by
    simp [Text.isAsciiBlank, Text.ne_of_isAlphanum hc]
  rw [splitAddress?, if_neg (by simp [hblank])]

theorem splitAddress?_hex (h : Numeral.natural? 16 ds = some n) (hn : n < 2 ^ 64)
    (rest : List Char) :
    splitAddress? [] (ds ++ ':' :: ' ' :: rest) = some (UInt64.ofNat n, ' ' :: rest) := by
  rw [splitAddress?_append (not_mem_of_natural? h rfl), List.append_nil, splitAddress?,
    List.reverse_reverse, addressIn?_of_natural? h hn]
  rfl

end Digits

/-! ## The text -/

/-- Neither a blank nor the mark of a comment. -/
def isInk (c : Char) : Bool := !Text.isBlank c && c ≠ ';'

theorem isInk_iff {c : Char} : isInk c ↔ Text.isBlank c = false ∧ c ≠ ';' := by
  simp [isInk]

/-- A word and its operands. -/
theorem ofText?_words {word operands : List Char} (hword : ∀ c ∈ word, Text.isBlank c = false)
    (hbytes : isByteColumn word = false) (hne : word ≠ []) (htrim : Text.trim operands = operands)
    (hne' : operands ≠ []) (a : Address) :
    ofText? a (word ++ ' ' :: operands) =
      some (match datum? word operands with
        | some value => .data a value
        | none => .instruction ⟨a, mnemonicOf word, operands⟩) := by
  have hfirst : Text.firstWord (word ++ ' ' :: operands) = (word, operands) := by
    rw [Text.firstWord_append hword (by decide), htrim]
  have hsplit : splitText (word ++ ' ' :: operands) = (word, operands) := by
    simp only [splitText, hfirst, hbytes, Bool.false_and, Bool.false_eq_true, if_false]
  simp only [ofText?, hsplit, List.isEmpty_eq_false_iff.2 hne, List.isEmpty_eq_false_iff.2 hne',
    Bool.false_and, Bool.false_eq_true, if_false]
  cases datum? word operands with
  | some value => rfl
  | none => rfl

/-- **A written line is read.** -/
theorem parse?_line {ds : List Char} {n : Nat} (h : Numeral.natural? 16 ds = some n)
    (hn : n < 2 ^ 64) {word operands : List Char} (hword : ∀ c ∈ word, isInk c)
    (hbytes : isByteColumn word = false) (hne : word ≠ []) (hoperands : ∀ c ∈ operands, isInk c)
    (hne' : operands ≠ []) :
    parse? (ds ++ ':' :: ' ' :: (word ++ ' ' :: operands)) =
      some (match datum? word operands with
        | some value => .data (UInt64.ofNat n) value
        | none => .instruction ⟨UInt64.ofNat n, mnemonicOf word, operands⟩) := by
  have hcomment : (' ' :: (word ++ ' ' :: operands)).takeWhile (· ≠ ';') =
      ' ' :: (word ++ ' ' :: operands) := by
    refine List.takeWhile_eq_self_iff.2 fun c hc => decide_eq_true ?_
    simp only [List.mem_cons, List.mem_append] at hc
    rcases hc with rfl | hc | rfl | hc
    · decide
    · exact (isInk_iff.1 (hword c hc)).2
    · decide
    · exact (isInk_iff.1 (hoperands c hc)).2
  have htrim : Text.trim (' ' :: (word ++ ' ' :: operands)) = word ++ ' ' :: operands := by
    rw [Text.trim_cons_of_isBlank (by decide)]
    refine Text.trim_of_ends (fun c hc => ?_) (fun c hc => ?_)
    · rw [List.head?_append, Option.or_of_isSome (by simpa using hne)] at hc
      exact (isInk_iff.1 (hword c (List.mem_of_mem_head? hc))).1
    · rw [List.getLast?_append, List.getLast?_cons_of_ne_nil hne',
        Option.or_of_isSome (by simpa using hne')] at hc
      exact (isInk_iff.1 (hoperands c (List.mem_of_getLast? hc))).1
  have hwords := ofText?_words (fun c hc => (isInk_iff.1 (hword c hc)).1) hbytes hne
    (Text.trim_of_forall fun c hc => (isInk_iff.1 (hoperands c hc)).1) hne' (UInt64.ofNat n)
  rw [parse?, splitAddress?_hex h hn]
  show ofText? _ (Text.trim ((' ' :: (word ++ ' ' :: operands)).takeWhile (· ≠ ';'))) = _
  rw [hcomment, htrim, hwords]

end FirmScan.Line
