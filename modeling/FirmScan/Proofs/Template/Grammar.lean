import FirmScan.Proofs.Template.Field

/-!
# The grammar of patterns

A pattern is a sequence of tokens: characters other than braces, doubled braces, and fields in
braces.

**Theorem (`fill_denotes_grammar`).** A pattern can be filled in exactly if it is such a sequence.
The text is then what the tokens show, one after another, however the pattern is taken apart. In all
other cases a field is at fault.

**Reading a token** (`fillText_token`). What a token shows goes in front of whatever the rest of the
pattern gives. This makes the grammar complete, one token at a time.

**Finding a token** (`token_or_fault`). A pattern that is not empty starts with a token or is at
fault. One that is filled in therefore starts with a token, and its rest is filled in as well. This
makes the grammar sound, by induction on the length of the pattern.

**Characters** (`mem_of_fillText`, `mem_of_fillText_error`). Nothing but digits and spaces comes
into a text that is not in its pattern, and a fault is reported in characters of the pattern alone.
-/

namespace FirmScan.Template

/-! ## Tokens -/

inductive Token where
  | plain (c : Char) (notOpen : c ≠ '\x7b') (notClose : c ≠ '\x7d')
  | openBrace
  | closeBrace
  | field (f : Field)

namespace Token

/-- The token in a pattern. -/
def source : Token → List Char
  | .plain c .. => [c]
  | .openBrace => ['\x7b', '\x7b']
  | .closeBrace => ['\x7d', '\x7d']
  | .field f => '\x7b' :: (f.source ++ ['\x7d'])

/-- What the token stands for. -/
def Shows (slot : UInt32) (target : Address) : Token → List Char → Prop
  | .plain c .., text => text = [c]
  | .openBrace, text => text = ['\x7b']
  | .closeBrace, text => text = ['\x7d']
  | .field f, text => f.Shows slot target text

/-- What tokens stand for, one after another. -/
inductive ShowAll (slot : UInt32) (target : Address) : List Token → List Char → Prop
  | nil : ShowAll slot target [] []
  | cons {x : Token} {text : List Char} {tokens : List Token} {rest : List Char}
      (head : x.Shows slot target text)
    (tail : ShowAll slot target tokens rest) : ShowAll slot target (x :: tokens) (text ++ rest)

end Token

theorem Token.length_source_pos (x : Token) : 0 < x.source.length := by
  cases x <;> simp [source]

theorem Token.exists_shows (slot : UInt32) (target : Address) (x : Token) :
    ∃ text, x.Shows slot target text := by
  cases x with
  | plain c notOpen notClose => exact ⟨_, rfl⟩
  | openBrace => exact ⟨_, rfl⟩
  | closeBrace => exact ⟨_, rfl⟩
  | field f => exact ⟨_, Format.shows_iff.2 rfl⟩

theorem Token.exists_showAll (slot : UInt32) (target : Address) (tokens : List Token) :
    ∃ text, ShowAll slot target tokens text := by
  induction tokens with
  | nil => exact ⟨_, .nil⟩
  | cons x tokens ih =>
    obtain ⟨text, htext⟩ := x.exists_shows slot target
    obtain ⟨rest, hrest⟩ := ih
    exact ⟨_, .cons htext hrest⟩

/-! ## Reading a token -/

variable {slot : UInt32} {target : Address}

theorem fillText_plain {c : Char} (hopen : c ≠ '\x7b') (hclose : c ≠ '\x7d') (rest : List Char) :
    fillText slot target (c :: rest) = (fillText slot target rest).map (c :: ·) := by
  rw [fillText]
  all_goals simp [hopen, hclose]

theorem fillText_open {rest : List Char} (h : ∀ rest', rest ≠ '\x7b' :: rest') :
    fillText slot target ('\x7b' :: rest) = fillField slot target [] rest := by
  rw [fillText]
  exact h

theorem fillText_close {rest : List Char} (h : ∀ rest', rest ≠ '\x7d' :: rest') :
    fillText slot target ('\x7d' :: rest) = .error ['\x7d'] := by
  rw [fillText]
  exact h

/-- Inside a field all characters up to the closing brace are read. -/
theorem fillField_append {inner : List Char} (h : '\x7d' ∉ inner) (seen rest : List Char) :
    fillField slot target seen (inner ++ '\x7d' :: rest) =
      (fieldText slot target (seen.reverse ++ inner)).bind fun text =>
        (fillText slot target rest).map (text ++ ·) := by
  induction inner generalizing seen with
  | nil =>
    rw [List.nil_append, fillField, List.append_nil]
    cases fieldText slot target seen.reverse with
    | error e => rfl
    | ok text => cases fillText slot target rest <;> rfl
  | cons c inner ih =>
    have hc : c ≠ '\x7d' := fun hc => h (hc ▸ List.mem_cons_self)
    rw [List.cons_append, fillField, ih fun hmem => h (List.mem_cons_of_mem c hmem)]
    · simp
    · exact hc

theorem fillField_of_not_mem {rest : List Char} (h : '\x7d' ∉ rest) (seen : List Char) :
    fillField slot target seen rest = .error (seen.reverse ++ rest) := by
  induction rest generalizing seen with
  | nil => rw [fillField, List.append_nil]
  | cons c rest ih =>
    have hc : c ≠ '\x7d' := fun hc => h (hc ▸ List.mem_cons_self)
    rw [fillField, ih fun hmem => h (List.mem_cons_of_mem c hmem)]
    · simp
    · exact hc

/-- The brace that closes a field is not taken for a second opening one. -/
theorem closed_ne {inner : List Char} (h : '\x7b' ∉ inner) (rest rest' : List Char) :
    inner ++ '\x7d' :: rest ≠ '\x7b' :: rest' := by
  intro heq
  cases inner with
  | nil => exact absurd (List.cons.inj heq).1 (by decide)
  | cons c inner =>
    obtain ⟨rfl, -⟩ := List.cons.inj heq
    exact h List.mem_cons_self

/-- **Reading a token.** What it shows goes in front of what the rest gives. -/
theorem fillText_token {x : Token} {text : List Char} (h : x.Shows slot target text)
    (rest : List Char) :
    fillText slot target (x.source ++ rest) = (fillText slot target rest).map (text ++ ·) := by
  cases x with
  | plain c notOpen notClose =>
    cases h
    exact fillText_plain notOpen notClose rest
  | openBrace =>
    cases h
    simp only [Token.source, List.cons_append, List.nil_append, fillText]
  | closeBrace =>
    cases h
    simp only [Token.source, List.cons_append, List.nil_append, fillText]
  | field f =>
    have hopen : '\x7b' ∉ f.source := f.not_mem_source (by decide) (by decide) (by decide)
    have hclose : '\x7d' ∉ f.source := f.not_mem_source (by decide) (by decide) (by decide)
    have hfield : fieldText slot target f.source = .ok text := fieldText_eq_ok_iff.2 ⟨f, rfl, h⟩
    have hsource : Token.source (.field f) ++ rest = '\x7b' :: (f.source ++ '\x7d' :: rest) := by
      simp [Token.source]
    rw [hsource, fillText_open (closed_ne hopen rest), fillField_append hclose, List.reverse_nil,
      List.nil_append, hfield]
    rfl

theorem map_append_map_append (x y : List Char) (r : Except (List Char) (List Char)) :
    (r.map (y ++ ·)).map (x ++ ·) = r.map (x ++ y ++ ·) := by
  cases r with
  | error e => rfl
  | ok z => exact congrArg Except.ok (List.append_assoc x y z).symm

/-- **Reading tokens**, whatever follows them. -/
theorem fillText_append_of_showAll {tokens : List Token} {text : List Char}
    (h : Token.ShowAll slot target tokens text) (rest : List Char) :
    fillText slot target (tokens.flatMap Token.source ++ rest) =
      (fillText slot target rest).map (text ++ ·) := by
  induction h with
  | nil =>
    rw [List.flatMap_nil, List.nil_append]
    cases fillText slot target rest <;> rfl
  | cons hhead _ ih =>
    rw [List.flatMap_cons, List.append_assoc, fillText_token hhead, ih, map_append_map_append]

theorem fillText_of_showAll {tokens : List Token} {text : List Char}
    (h : Token.ShowAll slot target tokens text) :
    fillText slot target (tokens.flatMap Token.source) = .ok text := by
  have hread := fillText_append_of_showAll h []
  rw [List.append_nil, fillText] at hread
  rw [hread, Except.map, List.append_nil]

/-! ## Finding a token -/

/-- A fault in a field is reported by its name or by all of it. -/
theorem mem_of_fieldText_error {field e : List Char} (h : fieldText slot target field = .error e)
    {c : Char} (hc : c ∈ e) : c ∈ field := by
  rw [fieldText] at h
  cases hcut : Text.cutAt? (· = ':') field with
  | none =>
    simp only [hcut] at h
    cases hfield : field? slot target (Text.trim field) with
    | none =>
      simp only [hfield, Except.error.injEq] at h
      subst h
      exact Text.mem_of_mem_trim hc
    | some found => simp [hfield] at h
  | some parts =>
    obtain ⟨name, spec⟩ := parts
    obtain ⟨d, hsplit, -, -⟩ := Text.eq_append_of_cutAt? hcut
    simp only [hcut] at h
    cases hfield : field? slot target (Text.trim name) with
    | none =>
      simp only [hfield, Except.error.injEq] at h
      subst h
      rw [hsplit]
      exact List.mem_append_left _ (Text.mem_of_mem_trim hc)
    | some found =>
      cases hformat : format? spec with
      | none =>
        simp only [hfield, hformat, Except.error.injEq] at h
        rwa [h]
      | some format => simp [hfield, hformat] at h

/-- **Finding a token** at the start of a pattern, or else a fault that is reported by a part of the
pattern. -/
theorem token_or_fault (slot : UInt32) (target : Address) (c : Char) (cs : List Char) :
    (∃ (x : Token) (rest : List Char), c :: cs = x.source ++ rest) ∨
      ∃ e, fillText slot target (c :: cs) = .error e ∧ ∀ d ∈ e, d ∈ c :: cs := by
  by_cases hopen : c = '\x7b'
  · subst hopen
    by_cases hdouble : ∃ rest, cs = '\x7b' :: rest
    · obtain ⟨rest, rfl⟩ := hdouble
      exact Or.inl ⟨.openBrace, rest, rfl⟩
    · have hfield : fillText slot target ('\x7b' :: cs) = fillField slot target [] cs :=
        fillText_open fun rest heq => hdouble ⟨rest, heq⟩
      rw [hfield]
      by_cases hmem : '\x7d' ∈ cs
      · obtain ⟨inner, rest, rfl, hinner⟩ := List.eq_append_cons_of_mem hmem
        rw [fillField_append hinner, List.reverse_nil, List.nil_append]
        cases htext : fieldText slot target inner with
        | error e =>
          refine Or.inr ⟨e, rfl, fun d hd => ?_⟩
          exact List.mem_cons_of_mem _ (List.mem_append_left _ (mem_of_fieldText_error htext hd))
        | ok text =>
          obtain ⟨f, rfl, -⟩ := fieldText_eq_ok_iff.1 htext
          exact Or.inl ⟨.field f, rest, by simp [Token.source]⟩
      · exact Or.inr ⟨cs, fillField_of_not_mem hmem [], fun d hd => List.mem_cons_of_mem _ hd⟩
  · by_cases hclose : c = '\x7d'
    · subst hclose
      by_cases hdouble : ∃ rest, cs = '\x7d' :: rest
      · obtain ⟨rest, rfl⟩ := hdouble
        exact Or.inl ⟨.closeBrace, rest, rfl⟩
      · refine Or.inr ⟨['\x7d'], fillText_close fun rest heq => hdouble ⟨rest, heq⟩, fun d hd => ?_⟩
        rw [List.mem_singleton.1 hd]
        exact List.mem_cons_self
    · exact Or.inl ⟨.plain c hopen hclose, cs, rfl⟩

theorem exists_token {c : Char} {cs out : List Char}
    (h : fillText slot target (c :: cs) = .ok out) :
    ∃ (x : Token) (rest : List Char), c :: cs = x.source ++ rest := by
  rcases token_or_fault slot target c cs with htoken | ⟨e, he, -⟩
  · exact htoken
  · rw [he] at h
    cases h

/-- A pattern is taken apart from the left: behind a token it can be filled in as well. -/
theorem exists_tokens {cs out : List Char} (h : fillText slot target cs = .ok out) :
    ∃ tokens : List Token, cs = tokens.flatMap Token.source := by
  induction hn : cs.length using Nat.strongRecOn generalizing cs out with
  | ind n ih =>
    cases cs with
    | nil => exact ⟨[], rfl⟩
    | cons c cs =>
      obtain ⟨x, rest, hcs⟩ := exists_token h
      obtain ⟨text, htext⟩ := x.exists_shows slot target
      rw [hcs] at h hn ⊢
      rw [fillText_token htext] at h
      have hlt : rest.length < n := by
        have := x.length_source_pos
        rw [List.length_append] at hn
        omega
      cases hrest : fillText slot target rest with
      | error e =>
        rw [hrest] at h
        cases h
      | ok later =>
        obtain ⟨tokens, rfl⟩ := ih rest.length hlt hrest rfl
        exact ⟨x :: tokens, List.flatMap_cons.symm⟩

theorem exists_showAll_of_fillText {cs text : List Char} (h : fillText slot target cs = .ok text) :
    ∃ tokens : List Token, cs = tokens.flatMap Token.source ∧
      Token.ShowAll slot target tokens text := by
  obtain ⟨tokens, rfl⟩ := exists_tokens h
  obtain ⟨shown, hshown⟩ := Token.exists_showAll slot target tokens
  rw [fillText_of_showAll hshown] at h
  cases h
  exact ⟨tokens, rfl, hshown⟩

/-! ## Characters -/

theorem isAlphanum_of_mem_write (d : Digits) {n : Nat} {c : Char} (h : c ∈ d.write n) :
    c.isAlphanum :=
  Numeral.isAlphanum_of_natural? (d.reads_write n) c h

/-- What a token shows beyond its own characters are digits, and spaces that fill up a number. -/
theorem Token.mem_of_shows {x : Token} {text : List Char} (h : x.Shows slot target text) {c : Char}
    (hc : c ∈ text) :
    c ∈ x.source ∨ c.isAlphanum ∨ c = ' ' := by
  cases x with
  | plain d notOpen notClose =>
    cases h
    exact Or.inl hc
  | openBrace =>
    cases h
    exact Or.inl (List.mem_cons_of_mem _ hc)
  | closeBrace =>
    cases h
    exact Or.inl (List.mem_cons_of_mem _ hc)
  | field f =>
    obtain rfl := Format.shows_iff.1 h
    rw [Format.write, List.leftpad, List.mem_append] at hc
    rcases hc with hfill | hdigit
    · rw [List.eq_of_mem_replicate hfill]
      split
      · exact Or.inr (Or.inl rfl)
      · exact Or.inr (Or.inr rfl)
    · exact Or.inr (Or.inl (isAlphanum_of_mem_write _ hdigit))

/-- **The characters of a text** are those of its pattern, digits and spaces. -/
theorem mem_of_fillText {cs out : List Char} (h : fillText slot target cs = .ok out) {c : Char}
    (hc : c ∈ out) :
    c ∈ cs ∨ c.isAlphanum ∨ c = ' ' := by
  obtain ⟨tokens, rfl, hshown⟩ := exists_showAll_of_fillText h
  clear h
  induction hshown with
  | nil => cases hc
  | cons hhead htail ih =>
    rw [List.flatMap_cons, List.mem_append]
    rcases List.mem_append.1 hc with hc | hc
    · exact (Token.mem_of_shows hhead hc).imp_left Or.inl
    · exact (ih hc).imp_left Or.inr

/-- **A fault is reported by a part of the pattern.** -/
theorem mem_of_fillText_error {cs e : List Char} (h : fillText slot target cs = .error e) {c : Char}
    (hc : c ∈ e) :
    c ∈ cs := by
  induction hn : cs.length using Nat.strongRecOn generalizing cs with
  | ind n ih =>
    cases cs with
    | nil =>
      rw [fillText] at h
      cases h
    | cons d ds =>
      rcases token_or_fault slot target d ds with ⟨x, rest, hsource⟩ | ⟨e', he', hpart⟩
      · -- Behind a token the fault is in the rest.
        obtain ⟨text, htext⟩ := x.exists_shows slot target
        rw [hsource] at h hn ⊢
        rw [fillText_token htext] at h
        have hlt : rest.length < n := by
          have := x.length_source_pos
          rw [List.length_append] at hn
          omega
        cases hrest : fillText slot target rest with
        | ok later =>
          rw [hrest] at h
          cases h
        | error e' =>
          rw [hrest] at h
          cases h
          exact List.mem_append_right _ (ih rest.length hlt hrest rfl)
      · rw [he'] at h
        cases h
        exact hpart c hc

/-! ## Patterns -/

theorem fill_eq_ok_iff {pattern out : String} :
    fill pattern slot target = .ok out ↔ fillText slot target pattern.toList = .ok out.toList := by
  rw [fill]
  cases fillText slot target pattern.toList with
  | error field => simp
  | ok cs => simp [String.ext_iff]

theorem exists_badField_of_ne_ok {pattern : String}
    (h : ∀ out, fill pattern slot target ≠ .ok out) :
    ∃ field, fill pattern slot target = .error (.badField field) := by
  rw [fill] at h ⊢
  cases hfill : fillText slot target pattern.toList with
  | error field => exact ⟨_, rfl⟩
  | ok cs =>
    rw [hfill] at h
    exact absurd rfl (h _)

/-- **A pattern is filled in exactly if it is a sequence of tokens**, with what the tokens show. -/
theorem fill_denotes_grammar (pattern : String) (slot : UInt32) (target : Address) :
    ((∃ out, fill pattern slot target = .ok out) ↔
      ∃ tokens : List Token, pattern.toList = tokens.flatMap Token.source) ∧
    (∀ (tokens : List Token) (out : String), pattern.toList = tokens.flatMap Token.source →
      (fill pattern slot target = .ok out ↔ Token.ShowAll slot target tokens out.toList)) ∧
    ((¬ ∃ tokens : List Token, pattern.toList = tokens.flatMap Token.source) →
      ∃ field, fill pattern slot target = .error (.badField field)) := by
  have haccepts : (∃ out, fill pattern slot target = .ok out) ↔
      ∃ tokens : List Token, pattern.toList = tokens.flatMap Token.source := by
    constructor
    · intro h
      obtain ⟨out, hout⟩ := h
      exact exists_tokens (fill_eq_ok_iff.1 hout)
    · intro h
      obtain ⟨tokens, htokens⟩ := h
      obtain ⟨text, htext⟩ := Token.exists_showAll slot target tokens
      refine ⟨String.ofList text, fill_eq_ok_iff.2 ?_⟩
      rw [htokens, fillText_of_showAll htext, String.toList_ofList]
  refine ⟨haccepts, ?_, ?_⟩
  · intro tokens out htokens
    rw [fill_eq_ok_iff, htokens]
    constructor
    · intro h
      obtain ⟨text, htext⟩ := Token.exists_showAll slot target tokens
      rw [fillText_of_showAll htext] at h
      rwa [← Except.ok.inj h]
    · exact fillText_of_showAll
  · intro h
    exact exists_badField_of_ne_ok fun out hout => h (haccepts.1 ⟨out, hout⟩)

-- Braces are paired from the left, so the third one opens the field and the first one behind it
-- closes it.
example : fill "\x7b\x7b\x7bslot:02x\x7d\x7d\x7d" 10 0 = .ok "\x7b0a\x7d" := by
  decide

end FirmScan.Template
