import FirmScan.Json.Printer
import FirmScan.Json.Reader
import FirmScan.Proofs.Json.Lexing

/-!
# Printed values are read back

**Theorem (`parse?_compact`, `parse?_pretty`).** Both printed forms of a value are read back as that
value, whatever strings it holds and however deep it is.

The reader keeps a stack, so the invariant speaks of its states. `Takes cs r r'` says that the text
`cs` moves the reader from `r` to `r'`, and `Denotes cs v` that the text supplies the value `v`
wherever a value is due. The two printed forms differ in blanks alone. Arrays and objects are
therefore put together by one set of rules on `Takes`, and each printer follows them by induction on
the value.

Two kinds of values are left out, because their spelling is not theirs alone: a number that is not
plain digits and the value of a literal that denotes no text. `Printable` holds of the others.
-/

namespace FirmScan.Json

/-- Values that are made of words, naturals and texts. -/
inductive Printable : Json → Prop where
  | null : Printable .null
  | bool (b : Bool) : Printable (.bool b)
  | natural (n : Nat) : Printable (.natural n)
  | string (s : String) : Printable (.string s)
  | array (items : List Json) (h : ∀ v ∈ items, Printable v) : Printable (.array items)
  | object (fields : List (String × Json)) (h : ∀ f ∈ fields, Printable f.2) :
      Printable (.object fields)

attribute [simp] Printable.null Printable.bool Printable.natural Printable.string

@[simp] theorem printable_array {items : List Json} :
    Printable (.array items) ↔ ∀ v ∈ items, Printable v := by
  constructor
  · intro h
    cases h with
    | array _ hitems => exact hitems
  · exact .array items

@[simp] theorem printable_object {fields : List (String × Json)} :
    Printable (.object fields) ↔ ∀ f ∈ fields, Printable f.2 := by
  constructor
  · intro h
    cases h with
    | object _ hfields => exact hfields
  · exact .object fields

@[simp] theorem printable_strings (ss : List String) : Printable (strings ss) := by
  simp [strings]

@[simp] theorem printable_ofOption {α : Type} {f : α → Json} (h : ∀ a, Printable (f a))
    (o : Option α) :
    Printable (ofOption f o) := by
  cases o with
  | none => exact .null
  | some a => exact h a

/-! ## Texts that move the reader -/

/-- The text moves the reader from one state to another. -/
def Takes (cs : List Char) (r r' : Reading) : Prop :=
  ∃ ts, Lexes cs ts ∧ ts.foldlM read? r = some r'

/-- The text supplies the value wherever one is due. -/
def Denotes (cs : List Char) (v : Json) : Prop := ∀ stack, Takes cs (.value stack) (supply v stack)

namespace Takes

variable {c : Char} {cs cs' : List Char} {r r' r'' : Reading}

theorem append (h : Takes cs r r') (hc : isDivider c = true) (h' : Takes (c :: cs') r' r'') :
    Takes (cs ++ c :: cs') r r'' := by
  obtain ⟨ts, hlex, hread⟩ := h
  obtain ⟨ts', hlex', hread'⟩ := h'
  refine ⟨ts ++ ts', hlex.append hc hlex', ?_⟩
  rw [List.foldlM_append, hread]
  exact hread'

theorem blank (hc : isSpace c = true) (h : Takes cs r r') : Takes (c :: cs) r r' := by
  obtain ⟨ts, hlex, hread⟩ := h
  exact ⟨ts, hlex.space hc, hread⟩

theorem newline (level : Nat) (h : Takes cs r r') : Takes ((newline level).toList ++ cs) r r' := by
  have hspaces : Takes (List.replicate (2 * level) ' ' ++ cs) r r' := by
    induction 2 * level with
    | zero => exact h
    | succ n ih => exact ih.blank rfl
  rw [Json.newline, String.toList_ofList]
  exact hspaces.blank rfl

theorem append_newline (level : Nat) (h : Takes cs r r') :
    Takes (cs ++ (Json.newline level).toList) r r' := by
  have hblank : Takes ((Json.newline level).toList ++ []) r' r' := newline level ⟨[], .nil, rfl⟩
  rw [List.append_nil, Json.newline, String.toList_ofList] at hblank
  rw [Json.newline, String.toList_ofList]
  exact h.append rfl hblank

theorem mark {m : Mark} (hm : mark? c = some m) (hr : read? r (.mark m) = some r')
    (h : Takes cs r' r'') :
    Takes (c :: cs) r r'' := by
  obtain ⟨ts, hlex, hread⟩ := h
  refine ⟨.mark m :: ts, hlex.mark hm, ?_⟩
  rw [List.foldlM_cons, hr]
  exact hread

/-- A closing bracket or brace, or any other last mark. -/
theorem last {m : Mark} (hm : mark? c = some m) (hr : read? r (.mark m) = some r') :
    Takes [c] r r' :=
  mark hm hr ⟨[], .nil, rfl⟩

/-- A text starts as well in a state where the reader takes every token that it takes here. -/
theorem start (h : Takes cs r r'') (hne : r ≠ r'')
    (hfirst : ∀ t s, read? r t = some s → read? r' t = some s) :
    Takes cs r' r'' := by
  obtain ⟨ts, hlex, hread⟩ := h
  refine ⟨ts, hlex, ?_⟩
  cases ts with
  | nil => exact absurd (Option.some.inj hread) hne
  | cons t ts =>
    rw [List.foldlM_cons] at hread
    obtain ⟨s, hs, hlater⟩ := Option.bind_eq_some_iff.1 hread
    rw [List.foldlM_cons, hfirst t s hs]
    exact hlater

end Takes

/-! ## Scalars -/

theorem denotes_string (s : String) : Denotes (quote s).toList (.string s) :=
  fun _ => ⟨_, lexes_quote s, rfl⟩

theorem denotes_lexeme {cs : List Char} {v : Json} (h : Lexes cs [.scalar v]) : Denotes cs v :=
  fun _ => ⟨_, h, rfl⟩

theorem denotes_null : Denotes (scalarText .null).toList .null :=
  denotes_lexeme (lexes_lexeme rfl rfl)

theorem denotes_bool (b : Bool) : Denotes (scalarText (.bool b)).toList (.bool b) := by
  cases b with
  | true => exact denotes_lexeme (lexes_lexeme rfl rfl)
  | false => exact denotes_lexeme (lexes_lexeme rfl rfl)

theorem denotes_natural (n : Nat) : Denotes (scalarText (.natural n)).toList (.natural n) := by
  rw [scalarText, String.toList_ofList]
  exact denotes_lexeme (lexes_decimal n)

/-! ## Arrays -/

/-- The text supplies the items of an array, from where one is due to where the next may follow. -/
def Items (cs : List Char) (vs : List Json) : Prop :=
  ∀ items stack, Takes cs (.value (.array items :: stack)) (.nextItem (vs.reverse ++ items) stack)

theorem Denotes.items {cs : List Char} {v : Json} (h : Denotes cs v) : Items cs [v] :=
  fun items stack => h (.array items :: stack)

theorem Items.cons {cs cs' : List Char} {v : Json} {vs : List Json} (h : Denotes cs v)
    (h' : Items cs' vs) :
    Items (cs ++ ',' :: cs') (v :: vs) := by
  intro items stack
  have hrest := h' (v :: items) stack
  rw [List.reverse_cons, List.append_assoc]
  exact Takes.append (h.items items stack) rfl (.mark rfl rfl hrest)

theorem items_intercalate (text : Json → List Char) {v : Json} {vs : List Json}
    (h : ∀ w ∈ v :: vs, Denotes (text w) w) :
    Items ([','].intercalate ((v :: vs).map text)) (v :: vs) := by
  induction vs generalizing v with
  | nil =>
    rw [List.map_singleton, List.intercalate_singleton]
    exact (h v List.mem_cons_self).items
  | cons w vs ih =>
    rw [List.map_cons, List.map_cons, List.intercalate_cons_cons, List.append_assoc]
    exact .cons (h v List.mem_cons_self) (ih fun u hu => h u (List.mem_cons_of_mem v hu))

theorem denotes_array_nil : Denotes ['[', ']'] (.array []) := fun _ => .mark rfl rfl (.last rfl rfl)

theorem Items.array {cs : List Char} {vs : List Json} (h : Items cs vs) :
    Denotes ('[' :: (cs ++ [']'])) (.array vs) := by
  intro stack
  have hfirst : Takes cs (.firstItem stack) (.nextItem vs.reverse stack) := by
    have hitems := h [] stack
    rw [List.append_nil] at hitems
    refine hitems.start (by simp) fun t s hs => ?_
    -- a token that starts a value is no closing bracket
    cases t with
    | mark m => cases m <;> first | exact hs | cases hs
    | scalar v => exact hs
    | text name => exact hs
  have hclose : read? (.nextItem vs.reverse stack) (.mark .closeArray) =
      some (supply (.array vs) stack) := by
    rw [read?, List.reverse_reverse]
  exact .mark rfl rfl (hfirst.append rfl (.last rfl hclose))

/-! ## Objects -/

/-- The text supplies the fields of an object, from where a name is due to where the next field may
follow. -/
def Fields (cs : List Char) (fs : List (String × Json)) : Prop :=
  ∀ fields stack, Takes cs (.name fields stack)
    (.nextField ((fs.map fun f => (some f.1, f.2)).reverse ++ fields) stack)

theorem Denotes.field {cs : List Char} {v : Json} (name : String) (h : Denotes cs v) :
    Fields ((quote name).toList ++ ':' :: cs) [(name, v)] := by
  intro fields stack
  have hname : Takes (quote name).toList (.name fields stack) (.colon fields (some name) stack) :=
    ⟨_, lexes_quote name, rfl⟩
  exact hname.append rfl (.mark rfl rfl (h (.object fields (some name) :: stack)))

theorem Fields.cons {cs cs' : List Char} {f : String × Json} {fs : List (String × Json)}
    (h : Fields cs [f]) (h' : Fields cs' fs) : Fields (cs ++ ',' :: cs') (f :: fs) := by
  intro fields stack
  have hrest := h' ((some f.1, f.2) :: fields) stack
  rw [List.map_cons, List.reverse_cons, List.append_assoc]
  exact Takes.append (h fields stack) rfl (.mark rfl rfl hrest)

theorem fields_intercalate (text : String × Json → List Char) {f : String × Json}
    {fs : List (String × Json)} (h : ∀ g ∈ f :: fs, Fields (text g) [g]) :
    Fields ([','].intercalate ((f :: fs).map text)) (f :: fs) := by
  induction fs generalizing f with
  | nil =>
    rw [List.map_singleton, List.intercalate_singleton]
    exact h f List.mem_cons_self
  | cons g fs ih =>
    rw [List.map_cons, List.map_cons, List.intercalate_cons_cons, List.append_assoc]
    exact .cons (h f List.mem_cons_self) (ih fun u hu => h u (List.mem_cons_of_mem f hu))

theorem denotes_object_nil : Denotes ['\x7b', '\x7d'] (.object []) :=
  fun _ => .mark rfl rfl (.last rfl rfl)

/-- Fields whose names are all texts make an object. -/
theorem ofFields_reverse (fs : List (String × Json)) :
    ofFields (fs.map fun f => (some f.1, f.2)).reverse = .object fs := by
  have hnames : ∀ gs : List (String × Json),
      (gs.map fun f => (some f.1, f.2)).mapM (fun f => f.1.map fun name => (name, f.2)) =
        some gs := by
    intro gs
    induction gs with
    | nil => rfl
    | cons g gs ih =>
      rw [List.map_cons, List.mapM_cons, ih]
      rfl
  rw [ofFields, List.reverse_reverse, hnames]

theorem Fields.object {cs : List Char} {fs : List (String × Json)} (h : Fields cs fs) :
    Denotes ('\x7b' :: (cs ++ ['\x7d'])) (.object fs) := by
  intro stack
  have hfirst : Takes cs (.firstName stack)
      (.nextField (fs.map fun f => (some f.1, f.2)).reverse stack) := by
    have hfields := h [] stack
    rw [List.append_nil] at hfields
    refine hfields.start (by simp) fun t s hs => ?_
    cases t with
    | mark m => cases hs
    | scalar v => cases hs
    | text name => exact hs
  have hclose : read? (.nextField (fs.map fun f => (some f.1, f.2)).reverse stack)
      (.mark .closeObject) =
      some (supply (.object fs) stack) := by
    rw [read?, ofFields_reverse]
  exact .mark rfl rfl (hfirst.append rfl (.last rfl hclose))

/-! ## The compact form -/

theorem toList_compactItems (vs : List Json) :
    (compactItems vs).toList = [','].intercalate (vs.map fun v => (compact v).toList) := by
  induction vs with
  | nil => rfl
  | cons v vs ih =>
    cases vs with
    | nil => rw [compactItems, List.map_singleton, List.intercalate_singleton]
    | cons w vs =>
      rw [compactItems.eq_3 v (w :: vs) (by simp), String.toList_append, ih]
      simp [List.intercalate_cons_cons]

theorem toList_compactFields (fs : List (String × Json)) :
    (compactFields fs).toList =
      [','].intercalate (fs.map fun f => (quote f.1).toList ++ ':' :: (compact f.2).toList) := by
  induction fs with
  | nil => rfl
  | cons f fs ih =>
    cases fs with
    | nil => simp [compactFields]
    | cons g fs =>
      rw [compactFields.eq_3 f.1 f.2 (g :: fs) (by simp), String.toList_append, ih]
      simp [List.intercalate_cons_cons]

theorem denotes_compact {v : Json} (h : Printable v) : Denotes (compact v).toList v := by
  induction h with
  | null => exact denotes_null
  | bool b => exact denotes_bool b
  | natural n => exact denotes_natural n
  | string s => exact denotes_string s
  | array items _ ih =>
    have htext : (compact (.array items)).toList =
        '[' :: ((compactItems items).toList ++ [']']) := by
      simp [compact]
    rw [htext, toList_compactItems]
    cases items with
    | nil => exact denotes_array_nil
    | cons v vs => exact (items_intercalate _ ih).array
  | object fields _ ih =>
    have htext : (compact (.object fields)).toList =
        '\x7b' :: ((compactFields fields).toList ++ ['\x7d']) := by
      simp [compact]
    rw [htext, toList_compactFields]
    cases fields with
    | nil => exact denotes_object_nil
    | cons f fs => exact (fields_intercalate _ fun g hg => (ih g hg).field g.1).object

/-! ## The pretty form -/

theorem toList_prettyItems (level : Nat) (vs : List Json) :
    (prettyItems level vs).toList =
      [','].intercalate (vs.map fun v => (newline level).toList ++ (prettyAt level v).toList) := by
  induction vs with
  | nil => rfl
  | cons v vs ih =>
    cases vs with
    | nil => simp [prettyItems]
    | cons w vs =>
      rw [prettyItems.eq_3 level v (w :: vs) (by simp), String.toList_append, ih]
      simp [List.intercalate_cons_cons]

theorem toList_prettyFields (level : Nat) (fs : List (String × Json)) :
    (prettyFields level fs).toList =
      [','].intercalate (fs.map fun f =>
        (newline level).toList ++
          ((quote f.1).toList ++ ':' :: ' ' :: (prettyAt level f.2).toList)) := by
  induction fs with
  | nil => rfl
  | cons f fs ih =>
    cases fs with
    | nil => simp [prettyFields]
    | cons g fs =>
      rw [prettyFields.eq_3 level f.1 f.2 (g :: fs) (by simp), String.toList_append, ih]
      simp [List.intercalate_cons_cons]

theorem denotes_prettyAt {v : Json} (h : Printable v) (level : Nat) :
    Denotes (prettyAt level v).toList v := by
  induction h generalizing level with
  | null => exact denotes_null
  | bool b => exact denotes_bool b
  | natural n => exact denotes_natural n
  | string s => exact denotes_string s
  | array items _ ih =>
    cases items with
    | nil =>
      rw [prettyAt]
      exact denotes_array_nil
    | cons v vs =>
      have htext : (prettyAt level (.array (v :: vs))).toList =
          '[' :: ((prettyItems (level + 1) (v :: vs)).toList ++ (newline level).toList ++
            [']']) := by
        simp [prettyAt]
      have hitems : Items (prettyItems (level + 1) (v :: vs)).toList (v :: vs) := by
        rw [toList_prettyItems]
        apply items_intercalate
        intro w hw stack
        exact (ih w hw (level + 1) stack).newline (level + 1)
      rw [htext]
      exact Items.array fun items stack => (hitems items stack).append_newline level
  | object fields _ ih =>
    cases fields with
    | nil =>
      rw [prettyAt]
      exact denotes_object_nil
    | cons f fs =>
      have htext : (prettyAt level (.object (f :: fs))).toList =
          '\x7b' :: ((prettyFields (level + 1) (f :: fs)).toList ++ (newline level).toList ++
            ['\x7d']) := by
        simp [prettyAt]
      have hfields : Fields (prettyFields (level + 1) (f :: fs)).toList (f :: fs) := by
        rw [toList_prettyFields]
        apply fields_intercalate
        intro g hg fields stack
        have hvalue : Denotes (' ' :: (prettyAt (level + 1) g.2).toList) g.2 := fun stack =>
          (ih g hg (level + 1) stack).blank rfl
        exact (hvalue.field g.1 fields stack).newline (level + 1)
      rw [htext]
      exact Fields.object fun fields stack => (hfields fields stack).append_newline level

/-! ## Whole documents -/

/-- A text with its line end is a document. -/
theorem Denotes.parse? {text : String} {v : Json} (h : Denotes text.toList v) :
    parse? (text ++ "\n") = some v := by
  obtain ⟨ts, hlex, hread⟩ := h []
  have htokens : tokens? (text ++ "\n").toList = some (ts ++ []) := by
    rw [String.toList_append]
    exact hlex ['\n'] fun c hc => Option.some.inj hc ▸ rfl
  rw [Json.parse?, htokens, List.append_nil]
  show (ts.foldlM read? (.value [])).bind _ = _
  rw [hread]
  rfl

/-- **A compact text is read back.** -/
theorem parse?_compact {v : Json} (h : Printable v) : parse? (compact v ++ "\n") = some v :=
  (denotes_compact h).parse?

/-- **A pretty text is read back.** -/
theorem parse?_pretty {v : Json} (h : Printable v) : parse? (pretty v ++ "\n") = some v :=
  (denotes_prettyAt h 0).parse?

end FirmScan.Json
