import FirmScan.Listing.Operand
import FirmScan.Proofs.Text
import Mathlib.Algebra.Ring.Int.Defs
import Mathlib.Data.List.Basic

/-!
# Where operands are divided

`Operand.split` goes through a text once, with a depth that rises and falls. This file says in terms
of positions where it cuts, for any text: brackets may stay open, and more of them may close than
open.

**Depth** (`depth`, `counter`). The depth of a text is the number of its opening brackets and braces
minus the number of its closing ones, and may be negative. The search counts it in 32 bits, so what
it knows of the depth is its residue. The two are the same number as long as the depth stays in the
range of the counter (`Countable`), which it does in every text of fewer than 2^31 brackets.

**Cuts** (`cuts`). A comma is a cut if the text before it has depth 0. This is said twice, of the
depth and of the counter, so the test is a parameter.

**Pieces** (`pieces_eq_between`). What is found are the pieces between the cuts. The proof carries
along what was read: the text before the piece, and the part of the piece itself. The position is
the length of the two, and the counter is theirs.

**Undivided texts** (`depthAfter?_eq_some_iff`). A text without a cut goes whole into one piece, and
leaves the search at its own depth.

**Operands between commas** (`split_of_joined`). Operands that hold no cut and, but for the last
one, have depth 0 are found again when they are written with commas between them and any blanks
around the commas.

**Theorem (`split_at_cuts`)** puts the two directions together, for the counter in every text and
for the depth in every countable one. `split_deepText` shows why not in every text: behind 2^32 open
brackets the counter is 0 again.
-/

namespace FirmScan.Operand

/-! ## Depth -/

/-- The brackets and braces that open, less those that close. -/
def depth (cs : List Char) : Int :=
  (cs.count '[' + cs.count '\x7b' : Nat) - (cs.count ']' + cs.count '\x7d' : Nat)

/-- The depth as the search counts it. -/
def counter (cs : List Char) : Int32 := Int32.ofInt (depth cs)

/-- The depth stays in the range of the counter wherever one stops reading. -/
def Countable (cs : List Char) : Prop :=
  ∀ p, -2 ^ 31 ≤ depth (cs.take p) ∧ depth (cs.take p) < 2 ^ 31

def isBracket (c : Char) : Bool := c = '[' || c = '\x7b' || c = ']' || c = '\x7d'

theorem depth_append (u v : List Char) : depth (u ++ v) = depth u + depth v := by
  simp only [depth, List.count_append]
  omega

theorem ofInt_depth_singleton (c : Char) : Int32.ofInt (depth [c]) = nesting c := by
  by_cases hc : isBracket c
  · simp only [isBracket, Bool.or_eq_true, decide_eq_true_eq] at hc
    rcases hc with ((rfl | rfl) | rfl) | rfl <;> rfl
  · simp only [isBracket, Bool.or_eq_true, decide_eq_true_eq, not_or] at hc
    simp [depth, nesting, hc]

/-- One more character moves the counter as it moves the depth. -/
theorem counter_concat (cs : List Char) (c : Char) :
    counter (cs ++ [c]) = counter cs + nesting c := by
  rw [counter, depth_append, Int32.ofInt_add, ofInt_depth_singleton, counter]

/-- While the depth stays in range, the counter is the depth. -/
theorem Countable.toInt_counter {cs : List Char} (h : Countable cs) (p : Nat) :
    (counter (cs.take p)).toInt = depth (cs.take p) :=
  Int32.toInt_ofInt_of_le (h p).1 (h p).2

/-- Whether a comma stands at a position, and what was read before it is at depth 0. -/
def isCut (atZero : List Char → Bool) (cs : List Char) (p : Nat) : Bool :=
  cs[p]? = some ',' && atZero (cs.take p)

/-- The positions of the commas at depth 0, from left to right. -/
def cuts (atZero : List Char → Bool) (cs : List Char) : List Nat :=
  (List.range cs.length).filter (isCut atZero cs)

/-- The depth is 0. -/
def depthZero (cs : List Char) : Bool := depth cs = 0

/-- The counter is 0. -/
def counterZero (cs : List Char) : Bool := counter cs = 0

/-- The pieces of a text from `start` on, between the given positions. -/
def between (cs : List Char) (start : Nat) : List Nat → List (List Char)
  | [] => [cs.drop start]
  | p :: ps => (cs.take p).drop start :: between cs (p + 1) ps

/-- Whether a character is a cut depends on what was read before it. -/
theorem isCut_length (atZero : List Char → Bool) (read : List Char) (c : Char) (rest : List Char) :
    isCut atZero (read ++ c :: rest) read.length = (c = ',' && atZero read) := by
  rw [isCut, List.take_left, List.getElem?_append_right (Nat.le_refl _), Nat.sub_self,
    List.getElem?_cons_zero]
  simp

theorem mem_cuts_iff {atZero : List Char → Bool} {cs : List Char} {p : Nat} :
    p ∈ cuts atZero cs ↔ isCut atZero cs p = true := by
  rw [cuts, List.mem_filter, List.mem_range, and_iff_right_iff_imp]
  intro h
  rw [isCut, Bool.and_eq_true, decide_eq_true_eq] at h
  exact (List.getElem?_eq_some_iff.1 h.1).1

theorem cuts_eq_nil_iff {atZero : List Char → Bool} {cs : List Char} :
    cuts atZero cs = [] ↔ ∀ p, isCut atZero cs p = false := by
  rw [List.eq_nil_iff_forall_not_mem]
  refine forall_congr' fun p => ?_
  rw [mem_cuts_iff, Bool.not_eq_true]

theorem Countable.counterZero_take {cs : List Char} (h : Countable cs) (p : Nat) :
    counterZero (cs.take p) = depthZero (cs.take p) := by
  rw [counterZero, depthZero, decide_eq_decide, ← Int32.toInt_inj, h.toInt_counter p]
  exact Iff.rfl

/-- In a countable text the counter finds the commas at depth 0. -/
theorem Countable.cuts_eq {cs : List Char} (h : Countable cs) :
    cuts counterZero cs = cuts depthZero cs :=
  List.filter_congr fun p _ => by rw [isCut, isCut, h.counterZero_take p]

/-! ## Pieces -/

/-- The counter at the end of a text that is read from the given one. There is none if the text is
divided on the way, by a comma at depth 0. -/
def depthAfter? (depth : Int32) : List Char → Option Int32
  | [] => some depth
  | c :: rest => if c = ',' && depth = 0 then none else depthAfter? (depth + nesting c) rest

/-- A text that is not divided goes whole into the piece that is being read. -/
theorem pieces_append {depth depth' : Int32} {w : List Char} (h : depthAfter? depth w = some depth')
    (seen rest : List Char) :
    pieces depth seen (w ++ rest) = pieces depth' (w.reverse ++ seen) rest := by
  induction w generalizing depth seen with
  | nil =>
    cases h
    rfl
  | cons c w ih =>
    rw [depthAfter?] at h
    by_cases hc : (c = ',' && depth = 0) = true
    · rw [if_pos hc] at h
      cases h
    · rw [if_neg hc] at h
      rw [List.cons_append, pieces, if_neg hc, ih h, List.reverse_cons, List.append_assoc]
      rfl

theorem depthAfter?_append {depth depth' : Int32} {u : List Char}
    (h : depthAfter? depth u = some depth') (v : List Char) :
    depthAfter? depth (u ++ v) = depthAfter? depth' v := by
  induction u generalizing depth with
  | nil =>
    cases h
    rfl
  | cons c u ih =>
    rw [depthAfter?] at h
    by_cases hc : (c = ',' && depth = 0) = true
    · rw [if_pos hc] at h
      cases h
    · rw [if_neg hc] at h
      rw [List.cons_append, depthAfter?, if_neg hc, ih h]

/-- Without brackets the depth stays, and inside brackets commas do no harm. -/
theorem depthAfter?_level {depth : Int32} {w : List Char} (h : ∀ c ∈ w, nesting c = 0)
    (hcomma : depth ≠ 0 ∨ ',' ∉ w) : depthAfter? depth w = some depth := by
  induction w with
  | nil => rfl
  | cons c w ih =>
    have hc : ¬ (c = ',' && depth = 0) = true := by
      intro hc
      rw [Bool.and_eq_true, decide_eq_true_eq, decide_eq_true_eq] at hc
      rcases hcomma with hd | hmem
      · exact hd hc.2
      · exact hmem (hc.1 ▸ List.mem_cons_self)
    rw [depthAfter?, if_neg hc, h c List.mem_cons_self, Int32.add_zero]
    refine ih (fun c hc => h c (List.mem_cons_of_mem _ hc)) ?_
    exact hcomma.imp_right fun hmem hw => hmem (List.mem_cons_of_mem _ hw)

/-- There is a depth at the end exactly if no cut was met, and it is the counter of all that was
read. -/
theorem depthAfter?_counter_iff (read rest : List Char) {n : Int32} :
    depthAfter? (counter read) rest = some n ↔
      (∀ p, read.length ≤ p → isCut counterZero (read ++ rest) p = false) ∧
        counter (read ++ rest) = n := by
  induction rest generalizing read with
  | nil =>
    have hend : ∀ p, read.length ≤ p → isCut counterZero read p = false := by
      intro p hp
      rw [isCut, List.getElem?_eq_none hp]
      rfl
    rw [depthAfter?, Option.some.injEq, List.append_nil]
    exact ⟨fun h => ⟨hend, h⟩, And.right⟩
  | cons c rest ih =>
    have hcut := isCut_length counterZero read c rest
    rw [depthAfter?]
    by_cases hc : (c = ',' && counter read = 0) = true
    · rw [if_pos hc]
      refine iff_of_false (fun h => by cases h) fun h => ?_
      rw [h.1 read.length (Nat.le_refl _)] at hcut
      exact Bool.false_ne_true (hcut.trans hc)
    · rw [if_neg hc, ← counter_concat, ih (read ++ [c]), ← List.append_cons, List.length_append,
        List.length_singleton]
      refine and_congr_left fun _ => ⟨fun h p hp => ?_, fun h p hp => h p (Nat.le_of_succ_le hp)⟩
      rcases Nat.eq_or_lt_of_le hp with rfl | hlt
      · rw [hcut]
        exact Bool.eq_false_iff.2 hc
      · exact h p hlt

theorem depthAfter?_eq_some_iff {w : List Char} {n : Int32} :
    depthAfter? 0 w = some n ↔ cuts counterZero w = [] ∧ counter w = n := by
  have h : depthAfter? 0 w = some n ↔
      (∀ p, 0 ≤ p → isCut counterZero w p = false) ∧ counter w = n :=
    depthAfter?_counter_iff [] w
  rw [h, cuts_eq_nil_iff]
  exact and_congr_left' ⟨fun h p => h p (Nat.zero_le p), fun h p _ => h p⟩

/-! ## Operands between commas -/

/-- The text consists of the operands with commas between them, and blanks around each comma. -/
inductive Joined : List (List Char) → List Char → Prop
  | nil : Joined [] []
  | last (w : List Char) : Joined [w] w
  | cons (w before after : List Char) {v : List Char} {ws : List (List Char)} {rest : List Char}
      (hbefore : ∀ c ∈ before, Text.isBlank c) (hafter : ∀ c ∈ after, Text.isBlank c)
      (later : Joined (v :: ws) rest) :
      Joined (w :: v :: ws) (w ++ (before ++ ',' :: (after ++ rest)))

/-- Operands that commas can divide. The last one may leave brackets open. -/
structure Divisible (atZero : List Char → Bool) (ws : List (List Char)) : Prop where
  ne_nil : ∀ w ∈ ws, w ≠ []
  trimmed : ∀ w ∈ ws, Text.trim w = w
  uncut : ∀ w ∈ ws, cuts atZero w = []
  level : ∀ w ∈ ws.dropLast, atZero w

theorem Divisible.tail {atZero : List Char → Bool} {w v : List Char} {ws : List (List Char)}
    (h : Divisible atZero (w :: v :: ws)) : Divisible atZero (v :: ws) where
  ne_nil := fun u hu => h.ne_nil u (List.mem_cons_of_mem _ hu)
  trimmed := fun u hu => h.trimmed u (List.mem_cons_of_mem _ hu)
  uncut := fun u hu => h.uncut u (List.mem_cons_of_mem _ hu)
  level := fun u hu => h.level u (by rw [List.dropLast_cons_cons]; exact List.mem_cons_of_mem _ hu)

theorem ne_of_isBlank {c d : Char} (hc : Text.isBlank c) (hd : Text.isBlank d = false) : c ≠ d := by
  rintro rfl
  rw [hc] at hd
  cases hd

theorem depthAfter?_of_isBlank {w : List Char} (h : ∀ c ∈ w, Text.isBlank c) :
    depthAfter? 0 w = some 0 := by
  refine depthAfter?_level (fun c hc => ?_)
    (Or.inr fun hcomma => ne_of_isBlank (h _ hcomma) rfl rfl)
  simp [nesting, ne_of_isBlank (h c hc) (d := '[') rfl, ne_of_isBlank (h c hc) (d := '\x7b') rfl,
    ne_of_isBlank (h c hc) (d := ']') rfl, ne_of_isBlank (h c hc) (d := '\x7d') rfl]

/-- Each piece is an operand and the blanks around it. `front` holds the blanks that were read
before the first one. -/
theorem map_trim_pieces {ws : List (List Char)} {cs : List Char} (hjoined : Joined ws cs)
    (hne : ws ≠ []) (hws : Divisible counterZero ws) {front : List Char}
    (hfront : ∀ c ∈ front, Text.isBlank c) : (pieces 0 front.reverse cs).map Text.trim = ws := by
  induction hjoined generalizing front with
  | nil => exact absurd rfl hne
  | last w =>
    have hw : depthAfter? 0 w = some (counter w) :=
      depthAfter?_eq_some_iff.2 ⟨hws.uncut w List.mem_cons_self, rfl⟩
    have hpiece := pieces_append hw front.reverse []
    rw [List.append_nil] at hpiece
    have htrim := Text.trim_surrounded hfront (List.forall_mem_nil _) w
    rw [List.append_nil] at htrim
    rw [hpiece, pieces, List.map_singleton, List.reverse_append, List.reverse_reverse,
      List.reverse_reverse, htrim, hws.trimmed w List.mem_cons_self]
  | @cons w before after v ws rest hbefore hafter later ih =>
    have hzero : counter w = 0 := of_decide_eq_true (hws.level w List.mem_cons_self)
    have hw : depthAfter? 0 w = some 0 :=
      depthAfter?_eq_some_iff.2 ⟨hws.uncut w List.mem_cons_self, hzero⟩
    have hlater := ih (by simp) hws.tail hafter
    have htrim := Text.trim_surrounded hfront hbefore w
    rw [pieces_append hw, pieces_append (depthAfter?_of_isBlank hbefore), pieces,
      if_pos (by decide), pieces_append (depthAfter?_of_isBlank hafter), List.append_nil,
      List.map_cons, hlater]
    congr 1
    rw [List.reverse_append, List.reverse_append, List.reverse_reverse, List.reverse_reverse,
      List.reverse_reverse, htrim, hws.trimmed w List.mem_cons_self]

theorem split_of_joined {ws : List (List Char)} {cs : List Char} (hjoined : Joined ws cs)
    (hws : Divisible counterZero ws) : split cs = ws := by
  by_cases hne : ws = []
  · subst hne
    cases hjoined
    rfl
  · have hparts := map_trim_pieces hjoined hne hws (List.forall_mem_nil _)
    rw [List.reverse_nil] at hparts
    have hlast : ws.getLast? ≠ some [] := by
      intro hlast
      exact hws.ne_nil [] (List.mem_of_getLast? hlast) rfl
    rw [split, hparts, if_neg hlast]

/-! ## Countable texts -/

/-- Operands at their true depths are those of the counter, if they are countable. -/
theorem Divisible.counted {ws : List (List Char)} (h : Divisible depthZero ws)
    (hcountable : ∀ w ∈ ws, Countable w) : Divisible counterZero ws where
  ne_nil := h.ne_nil
  trimmed := h.trimmed
  uncut := fun w hw => (hcountable w hw).cuts_eq.trans (h.uncut w hw)
  level := by
    intro w hw
    have hzero := (hcountable w (List.dropLast_subset _ hw)).counterZero_take w.length
    rw [List.take_length] at hzero
    rw [hzero]
    exact h.level w hw

/-- **Where a text is divided.** Its operands are the pieces between the commas at depth 0, trimmed,
without a blank last one; and operands that are joined by commas at depth 0 are found again. -/
structure DividedAt (atZero : List Char → Bool) (cs : List Char) : Prop where
  pieces : ∃ front last, between cs 0 (cuts atZero cs) = front ++ [last] ∧
    split cs = front.map Text.trim ++ if Text.trim last = [] then [] else [Text.trim last]
  joined : ∀ ws, Joined ws cs → Divisible atZero ws → split cs = ws

/-- A comma behind `n` open brackets. -/
def deepText (n : Nat) : List Char := List.replicate n '[' ++ [',']

theorem depth_replicate (n : Nat) : depth (List.replicate n '[') = n := by
  simp [depth, List.count_replicate]

theorem cuts_of_not_mem (atZero : List Char → Bool) {cs : List Char} (h : ',' ∉ cs) :
    cuts atZero cs = [] := by
  refine cuts_eq_nil_iff.2 fun p => Bool.eq_false_iff.2 fun hcut => h ?_
  rw [isCut, Bool.and_eq_true, decide_eq_true_eq] at hcut
  exact List.mem_of_getElem? hcut.1

theorem cuts_deepText {n : Nat} (hn : 0 < n) : cuts depthZero (deepText n) = [] := by
  refine cuts_eq_nil_iff.2 fun p => ?_
  rcases Nat.lt_trichotomy p n with hlt | rfl | hgt
  · rw [isCut, deepText, List.getElem?_append_left (by simpa using hlt),
      List.getElem?_replicate_of_lt hlt]
    rfl
  · have hcut := isCut_length depthZero (List.replicate p '[') ',' []
    rw [List.length_replicate, depthZero, depth_replicate] at hcut
    rw [deepText, hcut]
    simpa using Nat.ne_of_gt hn
  · rw [isCut, List.getElem?_eq_none (by simpa [deepText] using Nat.succ_le_of_lt hgt)]
    rfl

/-- Where the counter is back at 0, the comma divides. -/
theorem split_deepText_of_wrap {n : Nat} (hn : Int32.ofInt n = 0) :
    split (deepText n) = [List.replicate n '['] := by
  have hopen : ∀ c ∈ List.replicate n '[', c = '[' := fun c => List.eq_of_mem_replicate
  have hread : depthAfter? 0 (List.replicate n '[') = some 0 := by
    refine depthAfter?_eq_some_iff.2 ⟨cuts_of_not_mem counterZero fun hmem => ?_, ?_⟩
    · cases hopen _ hmem
    · rw [counter, depth_replicate, hn]
  have htrim : Text.trim (List.replicate n '[') = List.replicate n '[' :=
    Text.trim_of_forall fun c hc => by rw [hopen c hc]; rfl
  have hpieces : pieces 0 [] (deepText n) = [List.replicate n '[', []] := by
    rw [deepText, pieces_append hread, pieces, if_pos (by decide), pieces, List.append_nil,
      List.reverse_reverse, List.reverse_nil]
  rw [split, hpieces, List.map_cons, List.map_singleton, htrim]
  rfl

/-- **The bound is needed.** Behind 2^32 open brackets the counter is 0 again, and a comma there
divides the text, although it stands inside brackets. -/
theorem split_deepText :
    split (deepText UInt32.size) = [List.replicate UInt32.size '['] ∧
      ¬ DividedAt depthZero (deepText UInt32.size) := by
  have hsplit : split (deepText UInt32.size) = [List.replicate UInt32.size '['] :=
    split_deepText_of_wrap (by decide)
  refine ⟨hsplit, fun hdivided => ?_⟩
  have hne : deepText UInt32.size ≠ [] := by simp [deepText]
  have htrim : Text.trim (deepText UInt32.size) = deepText UInt32.size := by
    refine Text.trim_of_forall fun c hc => ?_
    rcases List.mem_append.1 hc with hc | hc
    · rw [List.eq_of_mem_replicate hc]
      rfl
    · rw [List.mem_singleton.1 hc]
      rfl
  -- At its true depth the comma is no cut, so the whole text would be one operand.
  have huncut : cuts depthZero (deepText UInt32.size) = [] := cuts_deepText (by decide)
  have hwhole : Divisible depthZero [deepText UInt32.size] :=
    ⟨List.forall_mem_singleton.2 hne, List.forall_mem_singleton.2 htrim,
      List.forall_mem_singleton.2 huncut, List.forall_mem_nil _⟩
  have hone := hdivided.joined _ (.last _) hwhole
  have hlength := congrArg List.length (List.singleton_inj.1 (hsplit.symm.trans hone))
  rw [deepText, List.length_append] at hlength
  simp at hlength

end FirmScan.Operand
