import FirmScan.Json.Token
import FirmScan.Proofs.Numeral

/-!
# Tokens are cut as they are written

A written text is cut into the tokens that it was written from. What a piece of text means depends
on what follows it in one case only: a word or a number goes on until something ends it.
`Lexes cs ts` therefore says that the text `cs` is cut into the tokens `ts` in front of every text
that ends a lexeme, and texts are put together by lemmas on `Lexes` alone.

**String literals** (`lexes_quote`). An escaped character is one piece of the literal and stands for
the character (`exists_piece`), so that a literal of any text is read as that text.

**Lexemes** (`lexes_lexeme`, `lexeme?_decimal`). Words and decimal numbers hold no character that
could end them.
-/

namespace FirmScan.Json

/-! ## Escapes -/

/-- The characters that are written as a backslash and a letter, with their letters. -/
def shortEscapes : List (Char × Char) :=
  [('"', '"'), ('\\', '\\'), ('\x08', 'b'), ('\x0c', 'f'), ('\n', 'n'), ('\r', 'r'), ('\t', 't')]

theorem escape_of_mem {c e : Char} (h : (c, e) ∈ shortEscapes) :
    escape c = ['\\', e] ∧ e ≠ 'u' ∧ shortEscape? e = some c := by
  simp only [shortEscapes, List.mem_cons, List.not_mem_nil, or_false, Prod.mk.injEq] at h
  rcases h with ⟨rfl, rfl⟩ | ⟨rfl, rfl⟩ | ⟨rfl, rfl⟩ | ⟨rfl, rfl⟩ | ⟨rfl, rfl⟩ | ⟨rfl, rfl⟩ |
    ⟨rfl, rfl⟩ <;>
    exact ⟨rfl, by decide, rfl⟩

theorem leftpad_lowerHex : ∀ n < 0x20,
    (Numeral.lowerHex n).leftpad 4 '0' =
      ['0', '0', Nat.digitChar (n / 16), Nat.digitChar (n % 16)] := by
  decide

/-- An escaped character: itself, a backslash and a letter, or its number. -/
theorem escape_cases (c : Char) :
    (escape c = [c] ∧ c ≠ '"' ∧ c ≠ '\\' ∧ 0x20 ≤ c.toNat) ∨
      (∃ e, escape c = ['\\', e] ∧ e ≠ 'u' ∧ shortEscape? e = some c) ∨
      (c.toNat < 0x20 ∧ ∃ w x y z, escape c = ['\\', 'u', w, x, y, z] ∧
        Numeral.natural? 16 [w, x, y, z] = some c.toNat) := by
  by_cases hshort : c ∈ shortEscapes.map Prod.fst
  · obtain ⟨p, hp, rfl⟩ := List.mem_map.1 hshort
    exact Or.inr (Or.inl ⟨p.2, escape_of_mem hp⟩)
  simp only [shortEscapes, List.map_cons, List.map_nil, List.mem_cons, List.not_mem_nil, or_false,
    not_or] at hshort
  by_cases hcontrol : c.toNat < 0x20
  · have hdigits := leftpad_lowerHex c.toNat hcontrol
    refine Or.inr
      (Or.inr ⟨hcontrol, '0', '0', Nat.digitChar (c.toNat / 16), Nat.digitChar (c.toNat % 16), ?_,
        ?_⟩)
    · simp only [escape, hshort, hcontrol, if_false, if_true, hdigits]
      rfl
    · rw [← hdigits]
      exact Numeral.natural?_leftpad (by decide) (Numeral.natural?_lowerHex c.toNat) 4
  · refine Or.inl ⟨?_, hshort.1, hshort.2.1, by omega⟩
    simp only [escape, hshort, hcontrol, if_false]

theorem pieces?_cons {c : Char} (hback : c ≠ '\\') (hprint : 0x20 ≤ c.toNat) (cs : List Char) :
    pieces? (c :: cs) = (pieces? cs).map (.char c :: ·) := by
  rw [pieces?.eq_4 c cs (fun _ _ _ _ _ h _ => hback h) (fun _ _ h _ => hback h), if_neg]
  simp only [Bool.or_eq_true, decide_eq_true_eq, not_or]
  exact ⟨hback, by omega⟩

/-- A unit below the surrogates is a character of its own, whatever follows. -/
theorem joinPieces?_unit {n : Nat} (h : n < 0xD800) (ps : List Piece) :
    joinPieces? (.unit n :: ps) = (joinPieces? ps).map (Char.ofNat n :: ·) := by
  have hhigh : isHighSurrogate n = false := by
    simp only [isHighSurrogate, Bool.and_eq_false_iff, decide_eq_false_iff_not]
    omega
  have hlow : isLowSurrogate n = false := by
    simp only [isLowSurrogate, Bool.and_eq_false_iff, decide_eq_false_iff_not]
    omega
  cases ps with
  | nil => simp [joinPieces?, hhigh, hlow]
  | cons p ps =>
    cases p with
    | char c => simp [joinPieces?, hhigh, hlow]
    | unit m => simp [joinPieces?, hhigh, hlow]

/-- An escaped character is one piece, and the piece stands for the character. -/
theorem exists_piece (c : Char) :
    ∃ p, (∀ cs, pieces? (escape c ++ cs) = (pieces? cs).map (p :: ·)) ∧
      ∀ ps, joinPieces? (p :: ps) = (joinPieces? ps).map (c :: ·) := by
  rcases escape_cases c with ⟨heq, -, hback, hprint⟩ | ⟨e, heq, hu, hshort⟩ |
    ⟨hcontrol, w, x, y, z, heq, hnumber⟩
  · refine ⟨.char c, fun cs => ?_, joinPieces?.eq_2 c⟩
    rw [heq]
    exact pieces?_cons hback hprint cs
  · refine ⟨.char c, fun cs => ?_, joinPieces?.eq_2 c⟩
    rw [heq]
    show pieces? ('\\' :: e :: cs) = _
    rw [pieces?.eq_3 e cs fun _ _ _ _ _ h _ => hu h, hshort]
    cases pieces? cs <;> rfl
  · refine ⟨.unit c.toNat, fun cs => ?_, fun ps => ?_⟩
    · rw [heq]
      show pieces? ('\\' :: 'u' :: w :: x :: y :: z :: cs) = _
      rw [pieces?, hnumber]
      cases pieces? cs <;> rfl
    · rw [joinPieces?_unit (by omega), Char.ofNat_toNat]

/-- **A string literal denotes the text that it was written from.** -/
theorem exists_pieces (cs : List Char) :
    ∃ ps, pieces? (cs.flatMap escape) = some ps ∧ joinPieces? ps = some cs := by
  induction cs with
  | nil => exact ⟨[], rfl, rfl⟩
  | cons c cs ih =>
    obtain ⟨ps, hpieces, hjoin⟩ := ih
    obtain ⟨p, hpiece, hchar⟩ := exists_piece c
    refine ⟨p :: ps, ?_, ?_⟩
    · rw [List.flatMap_cons, hpiece, hpieces]
      rfl
    · rw [hchar, hjoin]
      rfl

/-! ## String literals -/

attribute [local simp] tokensFrom?

theorem tokensFrom?_text_append {ds : List Char} (h : ∀ d ∈ ds, d ≠ '"' ∧ d ≠ '\\')
    (seen cs : List Char) :
    tokensFrom? (.text seen) (ds ++ cs) = tokensFrom? (.text (ds.reverse ++ seen)) cs := by
  induction ds generalizing seen with
  | nil => rfl
  | cons d ds ih =>
    obtain ⟨hquote, hback⟩ := h d List.mem_cons_self
    rw [List.cons_append, tokensFrom?, if_neg hquote, if_neg hback,
      ih fun e he => h e (List.mem_cons_of_mem d he), List.reverse_cons, List.append_assoc]
    rfl

theorem tokensFrom?_text_backslash (e : Char) (seen cs : List Char) :
    tokensFrom? (.text seen) ('\\' :: e :: cs) = tokensFrom? (.text (e :: '\\' :: seen)) cs := by
  rw [tokensFrom?, if_neg (by decide), if_pos rfl, tokensFrom?]

/-- No quote of an escaped character ends a string literal. -/
theorem tokensFrom?_text_escape (c : Char) (seen cs : List Char) :
    tokensFrom? (.text seen) (escape c ++ cs) =
      tokensFrom? (.text ((escape c).reverse ++ seen)) cs := by
  rcases escape_cases c with ⟨heq, hquote, hback, -⟩ | ⟨e, heq, -, -⟩ |
    ⟨-, w, x, y, z, heq, hnumber⟩
  · rw [heq]
    exact tokensFrom?_text_append (by simp [hquote, hback]) seen cs
  · rw [heq]
    exact tokensFrom?_text_backslash e seen cs
  · rw [heq]
    have hplain : ∀ d ∈ [w, x, y, z], d ≠ '"' ∧ d ≠ '\\' := fun d hd =>
      have halphanum := Numeral.isAlphanum_of_natural? hnumber d hd
      ⟨Text.ne_of_isAlphanum halphanum rfl, Text.ne_of_isAlphanum halphanum rfl⟩
    show tokensFrom? (.text seen) ('\\' :: 'u' :: ([w, x, y, z] ++ cs)) = _
    rw [tokensFrom?_text_backslash, tokensFrom?_text_append hplain]
    rfl

theorem tokensFrom?_text_flatMap (s seen cs : List Char) :
    tokensFrom? (.text seen) (s.flatMap escape ++ cs) =
      tokensFrom? (.text ((s.flatMap escape).reverse ++ seen)) cs := by
  induction s generalizing seen with
  | nil => rfl
  | cons c s ih =>
    rw [List.flatMap_cons, List.append_assoc, tokensFrom?_text_escape, ih, List.reverse_append,
      List.append_assoc]

/-- Text that the scan reads as one string token. -/
theorem tokensFrom?_text_quoted (s cs : List Char) :
    tokensFrom? (.text []) (s.flatMap escape ++ '"' :: cs) =
      (tokensFrom? .gap cs).map (.text (some (String.ofList s)) :: ·) := by
  obtain ⟨ps, hpieces, hjoin⟩ := exists_pieces s
  rw [tokensFrom?_text_flatMap, tokensFrom?, if_pos rfl, List.append_nil, List.reverse_reverse,
    textToken?, hpieces]
  simp only [Option.map_some, hjoin]
  cases tokensFrom? .gap cs <;> rfl

/-! ## What ends a lexeme -/

/-- The characters that end a lexeme. -/
def isDivider (c : Char) : Bool := isSpace c || c = '"' || (mark? c).isSome

/-- The text ends a lexeme in front of it. -/
def Ends (cs : List Char) : Prop := ∀ c ∈ cs.head?, isDivider c = true

/-- The text is cut into these tokens, in front of whatever ends a lexeme. -/
def Lexes (cs : List Char) (ts : List Token) : Prop :=
  ∀ rest, Ends rest → tokensFrom? .gap (cs ++ rest) = (tokensFrom? .gap rest).map (ts ++ ·)

theorem isDivider_eq_false_iff {c : Char} :
    isDivider c = false ↔ isSpace c = false ∧ c ≠ '"' ∧ mark? c = none := by
  simp [isDivider, and_assoc]

theorem tokensFrom?_gap_cons {c : Char} (h : isDivider c = false) (cs : List Char) :
    tokensFrom? .gap (c :: cs) = tokensFrom? (.lexeme [c]) cs := by
  obtain ⟨hspace, hquote, hmark⟩ := isDivider_eq_false_iff.1 h
  simp [hspace, hquote, hmark]

theorem tokensFrom?_lexeme_cons {c : Char} (h : isDivider c = false) (seen cs : List Char) :
    tokensFrom? (.lexeme seen) (c :: cs) = tokensFrom? (.lexeme (c :: seen)) cs := by
  obtain ⟨hspace, hquote, hmark⟩ := isDivider_eq_false_iff.1 h
  simp [hspace, hquote, hmark]

theorem tokensFrom?_lexeme_append {cs : List Char} (h : ∀ c ∈ cs, isDivider c = false)
    (seen rest : List Char) :
    tokensFrom? (.lexeme seen) (cs ++ rest) = tokensFrom? (.lexeme (cs.reverse ++ seen)) rest := by
  induction cs generalizing seen with
  | nil => rfl
  | cons c cs ih =>
    rw [List.cons_append, tokensFrom?_lexeme_cons (h c List.mem_cons_self),
      ih fun d hd => h d (List.mem_cons_of_mem c hd), List.reverse_cons, List.append_assoc]
    rfl

theorem mark?_of_isSpace {c : Char} (h : isSpace c = true) : mark? c = none := by
  simp only [isSpace, Bool.or_eq_true, decide_eq_true_eq] at h
  rcases h with ((rfl | rfl) | rfl) | rfl <;> rfl

theorem tokensFrom?_gap_space {c : Char} (h : isSpace c = true) (cs : List Char) :
    tokensFrom? .gap (c :: cs) = tokensFrom? .gap cs := by
  simp only [tokensFrom?, h, if_true]
  exact Option.bind_fun_some _

theorem tokensFrom?_gap_quote (cs : List Char) :
    tokensFrom? .gap ('"' :: cs) = tokensFrom? (.text []) cs :=
  Option.bind_fun_some _

theorem tokensFrom?_gap_mark {c : Char} {m : Mark} (h : mark? c = some m) (cs : List Char) :
    tokensFrom? .gap (c :: cs) = (tokensFrom? .gap cs).map (.mark m :: ·) := by
  have hspace : isSpace c = false := by
    by_contra hspace
    rw [mark?_of_isSpace (by simpa using hspace)] at h
    cases h
  have hquote : c ≠ '"' := by
    intro hquote
    rw [hquote] at h
    cases h
  simp only [tokensFrom?, hspace, hquote, h, Bool.false_eq_true, if_false]
  cases tokensFrom? .gap cs <;> rfl

/-- Whatever ends a lexeme is read as if it stood alone, and the lexeme is put in front. -/
theorem tokensFrom?_lexeme_ends {rest : List Char} (h : Ends rest) (seen : List Char) :
    tokensFrom? (.lexeme seen) rest = (tokensFrom? .gap rest).bind (Scan.lexeme seen).close? := by
  cases rest with
  | nil => rfl
  | cons c cs =>
    have hc : isDivider c = true := h c rfl
    by_cases hspace : isSpace c = true
    · rw [tokensFrom?_gap_space hspace]
      simp only [tokensFrom?, hspace, if_true]
    by_cases hquote : c = '"'
    · rw [hquote, tokensFrom?_gap_quote]
      rfl
    · obtain ⟨m, hm⟩ := Option.isSome_iff_exists.1 (by simpa [isDivider, hspace, hquote] using hc)
      rw [tokensFrom?_gap_mark hm]
      simp only [tokensFrom?, hspace, hquote, hm, Bool.false_eq_true, if_false]
      cases tokensFrom? .gap cs <;> rfl

/-! ## Texts put together -/

theorem Lexes.nil : Lexes [] [] := by
  intro rest _
  rw [List.nil_append]
  exact (Option.map_id' ..).symm

theorem Lexes.append {c : Char} {cs cs' : List Char} {ts ts' : List Token} (h : Lexes cs ts)
    (hc : isDivider c = true) (h' : Lexes (c :: cs') ts') : Lexes (cs ++ c :: cs') (ts ++ ts') := by
  intro rest hrest
  have hends : Ends (c :: cs' ++ rest) := by
    intro d hd
    obtain rfl : c = d := Option.some.inj hd
    exact hc
  rw [List.append_assoc, h _ hends, h' _ hrest, Option.map_map]
  simp only [Function.comp_def, List.append_assoc]

theorem Lexes.space {c : Char} {cs : List Char} {ts : List Token} (hc : isSpace c = true)
    (h : Lexes cs ts) :
    Lexes (c :: cs) ts := by
  intro rest hrest
  rw [List.cons_append, tokensFrom?_gap_space hc, h rest hrest]

theorem Lexes.mark {c : Char} {m : Mark} {cs : List Char} {ts : List Token} (hm : mark? c = some m)
    (h : Lexes cs ts) : Lexes (c :: cs) (.mark m :: ts) := by
  intro rest hrest
  rw [List.cons_append, tokensFrom?_gap_mark hm, h rest hrest, Option.map_map]
  rfl

theorem lexes_quote (s : String) : Lexes (quote s).toList [.text (some s)] := by
  intro rest _
  have htext : (quote s).toList ++ rest = '"' :: (s.toList.flatMap escape ++ '"' :: rest) := by
    simp [quote]
  rw [htext, tokensFrom?_gap_quote, tokensFrom?_text_quoted, String.ofList_toList]
  rfl

/-- A run of characters that nothing divides is one token, if it is a word or a number. -/
theorem lexes_lexeme {cs : List Char} {v : Json} (hcs : cs.any isDivider = false)
    (hv : lexeme? cs = some v) :
    Lexes cs [.scalar v] := by
  intro rest hrest
  have hplain : ∀ c ∈ cs, isDivider c = false :=
    fun c hc => by simpa using List.any_eq_false.1 hcs c hc
  cases cs with
  | nil => cases hv
  | cons c cs =>
    rw [List.cons_append, tokensFrom?_gap_cons (hplain c List.mem_cons_self),
      tokensFrom?_lexeme_append fun d hd => hplain d (List.mem_cons_of_mem c hd),
      tokensFrom?_lexeme_ends hrest]
    cases tokensFrom? .gap rest with
    | none => rfl
    | some later =>
      show (lexeme? (cs.reverse ++ [c]).reverse).map _ = _
      rw [List.reverse_append, List.reverse_reverse]
      show (lexeme? (c :: cs)).map _ = _
      rw [hv]
      rfl

/-! ## Decimal numbers -/

theorem isDivider_of_isDigit {c : Char} (h : c.isDigit = true) : isDivider c = false := by
  by_contra hdivider
  simp only [isDivider, Bool.not_eq_false, Bool.or_eq_true, decide_eq_true_eq] at hdivider
  rcases hdivider with (hspace | rfl) | hmark
  · simp only [isSpace, Bool.or_eq_true, decide_eq_true_eq] at hspace
    rcases hspace with ((rfl | rfl) | rfl) | rfl <;> cases h
  · cases h
  · obtain ⟨p, hp, hc⟩ := List.lookup_isSome_iff.1 hmark
    obtain rfl := eq_of_beq hc
    simp only [List.mem_cons, List.not_mem_nil, or_false] at hp
    rcases hp with rfl | rfl | rfl | rfl | rfl | rfl <;> cases h

theorem isInteger_decimal (n : Nat) : isInteger (Numeral.decimal n) = true := by
  have hne : Numeral.decimal n ≠ [] := Nat.toDigits_ne_nil
  have hdigits : ∀ c ∈ Numeral.decimal n, c.isDigit = true :=
    fun _ hc => Numeral.isDigit_of_mem_decimal hc
  simp only [isInteger, Bool.and_eq_true, Bool.or_eq_true, Bool.not_eq_true',
    List.isEmpty_eq_false_iff, List.all_eq_true, bne_iff_ne, decide_eq_true_eq]
  refine ⟨⟨hne, hdigits⟩, ?_⟩
  by_cases hzero : n = 0
  · rw [hzero]
    exact Or.inl rfl
  · exact Or.inr (Numeral.head?_decimal (by omega))

/-- A number in digits is read as that number. -/
theorem lexeme?_decimal (n : Nat) : lexeme? (Numeral.decimal n) = some (.natural n) := by
  -- a letter tells each word from a run of digits
  have hword {cs : List Char} (c : Char) (hc : c ∈ cs) (hletter : c.isDigit = false) :
      Numeral.decimal n ≠ cs := by
    intro hcs
    rw [← hcs] at hc
    rw [Numeral.isDigit_of_mem_decimal hc] at hletter
    cases hletter
  rw [lexeme?, if_neg (hword 't' (by decide) rfl), if_neg (hword 'f' (by decide) rfl),
    if_neg (hword 'n' (by decide) rfl), if_pos (isInteger_decimal n), Numeral.natural?_decimal]
  rfl

theorem lexes_decimal (n : Nat) : Lexes (Numeral.decimal n) [.scalar (.natural n)] := by
  have hplain : (Numeral.decimal n).any isDivider = false :=
    List.any_eq_false.2 fun c hc => by
      simp [isDivider_of_isDigit (Numeral.isDigit_of_mem_decimal hc)]
  exact lexes_lexeme hplain (lexeme?_decimal n)

end FirmScan.Json
