import FirmScan.Numeral
import FirmScan.Proofs.Text
import Mathlib.Data.List.Induction

/-!
# Numerals are read as they are written

The number that a run of digits spells is fixed by its first digit and by what one more digit does
(`natural?_concat`). A number is read back in the base that it was written in (`natural?_toDigits`),
hex in either case of the digits and with zeros in front or without (`natural?_upperHex`,
`natural?_leftpad`). The readers of fixed width then give the number if it fits.

What is written has no zero in front, and it is the only text without one that is read as the number
(`shortest_map_toDigits`, `eq_map_toDigits`).
-/

namespace FirmScan.Numeral

/-! ## Digits -/

theorem digit?_eq (c : Char) :
    digit? c = if 48 ≤ c.toNat ∧ c.toNat ≤ 57 then some (c.toNat - 48)
      else if 97 ≤ c.toNat ∧ c.toNat ≤ 102 then some (c.toNat - 97 + 10)
      else if 65 ≤ c.toNat ∧ c.toNat ≤ 70 then some (c.toNat - 65 + 10)
      else none := by
  simp only [digit?, Char.le_def, UInt32.le_iff_toNat_le]
  rfl

theorem digit?_eq_some_iff {c : Char} {d : Nat} :
    digit? c = some d ↔ (48 ≤ c.toNat ∧ c.toNat ≤ 57 ∧ c.toNat = 48 + d) ∨
      (97 ≤ c.toNat ∧ c.toNat ≤ 102 ∧ c.toNat = 87 + d) ∨
        (65 ≤ c.toNat ∧ c.toNat ≤ 70 ∧ c.toNat = 55 + d) := by
  rw [digit?_eq]
  split
  · rw [Option.some.injEq]
    omega
  · split
    · rw [Option.some.injEq]
      omega
    · split
      · rw [Option.some.injEq]
        omega
      · simp only [reduceCtorEq, false_iff]
        omega

theorem digit?_digitChar : ∀ d < 16, digit? (Nat.digitChar d) = some d := by decide

/-- A hex digit means the same in either case. -/
theorem digit?_toUpper (c : Char) : digit? c.toUpper = digit? c := by
  rw [digit?_eq, digit?_eq, Text.toNat_toUpper]
  by_cases h : 97 ≤ c.toNat ∧ c.toNat ≤ 122
  · rw [if_pos h]
    by_cases hf : c.toNat ≤ 102
    · rw [if_neg (by omega), if_neg (by omega), if_pos (by omega), if_neg (by omega),
        if_pos (by omega)]
      congr 1
    · rw [if_neg (by omega), if_neg (by omega), if_neg (by omega), if_neg (by omega),
        if_neg (by omega), if_neg (by omega)]
  · rw [if_neg h]

theorem isAlphanum_of_isHexDigit {c : Char} (h : isHexDigit c) : c.isAlphanum := by
  rw [isHexDigit, digit?_eq] at h
  rw [Text.isAlphanum_iff]
  split at h
  · omega
  · split at h
    · omega
    · split at h
      · omega
      · cases h

/-! ## Runs of digits -/

theorem natural?_eq_some_iff {b n : Nat} {cs : List Char} :
    natural? b cs = some n ↔
      cs ≠ [] ∧ ∃ ds, cs.mapM (digitIn? b) = some ds ∧ ofDigits b ds = n := by
  rw [natural?]
  by_cases h : cs = []
  · simp [h]
  · simp [h, Option.map_eq_some_iff]

theorem natural?_singleton {b d : Nat} {c : Char} (h : digitIn? b c = some d) :
    natural? b [c] = some d :=
  natural?_eq_some_iff.2 ⟨by simp, [d], by simp [h], by simp [ofDigits]⟩

/-- One more digit at the end. -/
theorem natural?_concat {b n d : Nat} {cs : List Char} {c : Char} (h : natural? b cs = some n)
    (hc : digitIn? b c = some d) : natural? b (cs ++ [c]) = some (b * n + d) := by
  obtain ⟨-, ds, hds, rfl⟩ := natural?_eq_some_iff.1 h
  refine natural?_eq_some_iff.2 ⟨by simp, ds ++ [d], ?_, ?_⟩
  · simp [List.mapM_append, hds, hc]
  · simp [ofDigits]

/-- A zero in front. -/
theorem natural?_zero_cons {b n : Nat} (hb : 0 < b) {cs : List Char} (h : natural? b cs = some n) :
    natural? b ('0' :: cs) = some n := by
  obtain ⟨-, ds, hds, rfl⟩ := natural?_eq_some_iff.1 h
  have hzero : digitIn? b '0' = some 0 := by
    rw [digitIn?, show digit? '0' = some 0 from rfl, Option.filter_some, if_pos (by simpa using hb)]
  exact natural?_eq_some_iff.2 ⟨by simp, 0 :: ds, by simp [hds, hzero], by simp [ofDigits]⟩

theorem natural?_leftpad {b n : Nat} (hb : 0 < b) {cs : List Char} (h : natural? b cs = some n)
    (width : Nat) : natural? b (cs.leftpad width '0') = some n := by
  rw [List.leftpad]
  generalize width - cs.length = k
  induction k with
  | zero => exact h
  | succ k ih =>
    rw [List.replicate_succ]
    exact natural?_zero_cons hb ih

theorem natural?_upper (b : Nat) (cs : List Char) : natural? b (Text.upper cs) = natural? b cs := by
  have hdigit : digitIn? b ∘ Char.toUpper = digitIn? b := by
    funext c
    simp [digitIn?, digit?_toUpper]
  simp [natural?, Text.upper, List.mapM_map, hdigit]

/-- **Numerals are read back**, in every base that has digits. -/
theorem natural?_toDigits {b : Nat} (hb : 1 < b) (hb' : b ≤ 16) (n : Nat) :
    natural? b (Nat.toDigits b n) = some n := by
  have hdigit {d : Nat} (h : d < b) : digitIn? b (Nat.digitChar d) = some d := by
    rw [digitIn?, digit?_digitChar d (by omega), Option.filter_some, if_pos (by simpa using h)]
  induction n using Nat.strongRecOn with
  | ind n ih =>
    by_cases h : n < b
    · rw [Nat.toDigits_of_lt_base h]
      exact natural?_singleton (hdigit h)
    · rw [Nat.toDigits_of_base_le hb (by omega)]
      have hless : n / b < n := Nat.div_lt_self (by omega) hb
      have := natural?_concat (ih (n / b) hless) (hdigit (Nat.mod_lt n (by omega)))
      rwa [Nat.div_add_mod] at this

theorem natural?_lowerHex (n : Nat) : natural? 16 (lowerHex n) = some n :=
  natural?_toDigits (by decide) (by decide) n

theorem natural?_decimal (n : Nat) : natural? 10 (decimal n) = some n :=
  natural?_toDigits (by decide) (by decide) n

theorem isDigit_of_mem_decimal {n : Nat} {c : Char} (h : c ∈ decimal n) : c.isDigit = true :=
  Nat.isDigit_of_mem_toDigits (by decide) (by decide) h

/-! ## Shortest numerals -/

theorem exists_of_mem_toDigits {b n : Nat} {c : Char} (hb : 1 < b) (h : c ∈ Nat.toDigits b n) :
    ∃ d < b, c = Nat.digitChar d := by
  induction n using Nat.strongRecOn with
  | ind n ih =>
    by_cases hsmall : n < b
    · rw [Nat.toDigits_of_lt_base hsmall, List.mem_singleton] at h
      exact ⟨n, hsmall, h⟩
    · rw [Nat.toDigits_of_base_le hb (by omega), List.mem_append, List.mem_singleton] at h
      rcases h with h | h
      · exact ih (n / b) (Nat.div_lt_self (by omega) hb) h
      · exact ⟨n % b, Nat.mod_lt n (by omega), h⟩

/-- Zero alone starts with a zero. -/
theorem head?_toDigits {b n : Nat} (hb : 1 < b) (hb' : b ≤ 16) (h : 0 < n) :
    (Nat.toDigits b n).head? ≠ some '0' := by
  induction n using Nat.strongRecOn with
  | ind n ih =>
    by_cases hsmall : n < b
    · rw [Nat.toDigits_of_lt_base hsmall]
      intro hzero
      have hdigit := digit?_digitChar n (by omega)
      rw [Option.some.inj hzero] at hdigit
      have : (0 : Nat) = n := Option.some.inj hdigit
      omega
    · have hne : Nat.toDigits b (n / b) ≠ [] := Nat.toDigits_ne_nil
      obtain ⟨c, hc⟩ := Option.isSome_iff_exists.1 (List.isSome_head?.2 hne)
      have hhead := ih (n / b) (Nat.div_lt_self h hb) (Nat.div_pos (by omega) (by omega))
      rw [hc] at hhead
      rw [Nat.toDigits_of_base_le hb (by omega), List.head?_append, hc]
      exact hhead

theorem head?_decimal {n : Nat} (h : 0 < n) : (decimal n).head? ≠ some '0' :=
  head?_toDigits (by decide) (by decide) h

/-- A zero stands in front only if it stands alone. -/
def Shortest (ds : List Char) : Prop := ds.head? = some '0' → ds = ['0']

/-- The digits of a number are shortest in any spelling `g` that keeps zero apart from the other
digits. -/
theorem shortest_map_toDigits {b : Nat} (hb : 1 < b) (hb' : b ≤ 16) {g : Char → Char}
    (hzero : g '0' = '0') (hg : ∀ d < b, g (Nat.digitChar d) = '0' → d = 0) (n : Nat) :
    Shortest ((Nat.toDigits b n).map g) := by
  intro hhead
  by_cases hn : 0 < n
  · rw [List.head?_map, Option.map_eq_some_iff] at hhead
    obtain ⟨c, hc, hgc⟩ := hhead
    obtain ⟨d, hd, rfl⟩ := exists_of_mem_toDigits hb (List.mem_of_mem_head? hc)
    rw [hg d hd hgc] at hc
    exact absurd hc (head?_toDigits hb hb' hn)
  · rw [Nat.eq_zero_of_not_pos hn, Nat.toDigits_of_lt_base (by omega)]
    exact congrArg (fun c => [c]) hzero

/-- The last digit of a numeral, and the numeral before it if there is one. -/
theorem natural?_concat_cases {b n : Nat} {cs : List Char} {c : Char}
    (h : natural? b (cs ++ [c]) = some n) :
    ∃ d, digitIn? b c = some d ∧
      (cs = [] ∧ n = d ∨ ∃ m, natural? b cs = some m ∧ n = b * m + d) := by
  obtain ⟨-, ds, hds, rfl⟩ := natural?_eq_some_iff.1 h
  simp only [List.mapM_append, List.mapM_cons, List.mapM_nil, Option.bind_eq_bind,
    Option.bind_eq_some_iff, Option.pure_def, Option.some.injEq] at hds
  obtain ⟨es, hes, -, ⟨d, hd, -, rfl, rfl⟩, rfl⟩ := hds
  refine ⟨d, hd, ?_⟩
  by_cases hnil : cs = []
  · subst hnil
    cases hes
    exact Or.inl ⟨rfl, by simp [ofDigits]⟩
  · exact Or.inr ⟨ofDigits b es, natural?_eq_some_iff.2 ⟨hnil, es, hes, rfl⟩, by simp [ofDigits]⟩

/-- **There is one shortest numeral** in each spelling of the digits. -/
theorem eq_map_toDigits {b n : Nat} (hb : 1 < b) {g : Char → Char} (hzero : g '0' = '0')
    {ds : List Char} (h : natural? b ds = some n) (hshort : Shortest ds)
    (hg : ∀ c ∈ ds, ∀ d, digitIn? b c = some d → c = g (Nat.digitChar d)) :
    ds = (Nat.toDigits b n).map g := by
  induction ds using List.reverseRecOn generalizing n with
  | nil => cases h
  | append_singleton cs c ih =>
    obtain ⟨hcs, hc⟩ := List.forall_mem_append.1 hg
    obtain ⟨d, hd, ⟨rfl, rfl⟩ | ⟨m, hm, rfl⟩⟩ := natural?_concat_cases h
    · have hlt : n < b := of_decide_eq_true (Option.filter_eq_some_iff.1 hd).2
      rw [Nat.toDigits_of_lt_base hlt]
      exact congrArg (fun c => [c]) (hc c (List.mem_singleton.2 rfl) n hd)
    · have hlt : d < b := of_decide_eq_true (Option.filter_eq_some_iff.1 hd).2
      have hne : cs ≠ [] := (natural?_eq_some_iff.1 hm).1
      -- A zero in front would not stand alone here, so there is none.
      have hhead : cs.head? ≠ some '0' := by
        intro hhead
        have halone := hshort (by rw [List.head?_append, hhead]; rfl)
        rcases List.append_eq_singleton_iff.1 halone with ⟨hnil, -⟩ | ⟨-, hnil⟩
        · exact hne hnil
        · cases hnil
      have hrest := ih hm (fun h => absurd h hhead) hcs
      have hpos : 0 < m := by
        refine Nat.pos_of_ne_zero fun hm0 => hhead ?_
        rw [hrest, hm0, Nat.toDigits_of_lt_base (by omega)]
        exact congrArg some hzero
      have hle : b ≤ b * m + d := Nat.le_add_right_of_le (Nat.le_mul_of_pos_right b hpos)
      have hdiv : (b * m + d) / b = m := by
        rw [Nat.mul_add_div (by omega), Nat.div_eq_of_lt hlt, Nat.add_zero]
      have hmod : (b * m + d) % b = d := by
        rw [Nat.mul_add_mod, Nat.mod_eq_of_lt hlt]
      rw [Nat.toDigits_of_base_le hb hle, hdiv, hmod, List.map_append, ← hrest]
      exact congrArg (cs ++ [·]) (hc c (List.mem_singleton.2 rfl) d hd)

theorem natural?_upperHex (n : Nat) : natural? 16 (upperHex n) = some n := by
  rw [upperHex, natural?_upper]
  exact natural?_lowerHex n

/-- The report spelling has one number for each text. -/
theorem hex8_inj {m n : Nat} : hex8 m = hex8 n ↔ m = n := by
  constructor
  · intro h
    have hdigits : (upperHex m).leftpad 8 '0' = (upperHex n).leftpad 8 '0' := by
      have := congrArg String.toList h
      simpa [hex8] using this
    have hm := natural?_leftpad (by decide) (natural?_upperHex m) 8
    have hn := natural?_leftpad (by decide) (natural?_upperHex n) 8
    rw [hdigits, hn] at hm
    exact (Option.some.inj hm).symm
  · intro h
    rw [h]

/-- The digits spell the number in hex, each in either case, with any zeros in front. -/
def IsHex (ds : List Char) (n : Nat) : Prop :=
  ∃ width, Text.upper ds = (upperHex n).leftpad width '0'

theorem isHex_leftpad (n width : Nat) : IsHex ((upperHex n).leftpad width '0') n := by
  refine ⟨width, ?_⟩
  have hdigits : (upperHex n).map Char.toUpper = upperHex n := Text.upper_upper _
  rw [List.leftpad, Text.upper, List.map_append, List.map_replicate, hdigits]
  rfl

theorem IsHex.natural? {ds : List Char} {n : Nat} (h : IsHex ds n) : natural? 16 ds = some n := by
  obtain ⟨width, hds⟩ := h
  rw [← natural?_upper, hds]
  exact natural?_leftpad (by decide) (natural?_upperHex n) width

theorem isHexDigit_of_natural? {b n : Nat} {cs : List Char} (h : natural? b cs = some n) :
    ∀ c ∈ cs, isHexDigit c := by
  obtain ⟨-, ds, hds, -⟩ := natural?_eq_some_iff.1 h
  clear h
  induction cs generalizing ds with
  | nil => simp
  | cons c cs ih =>
    simp only [List.mapM_cons, Option.bind_eq_bind, Option.bind_eq_some_iff] at hds
    obtain ⟨d, hd, ds', hds', -⟩ := hds
    have hc : isHexDigit c := by
      rw [isHexDigit, (Option.filter_eq_some_iff.1 hd).1]
      rfl
    exact List.forall_mem_cons.2 ⟨hc, ih ds' hds'⟩

theorem isAlphanum_of_natural? {b n : Nat} {cs : List Char} (h : natural? b cs = some n) :
    ∀ c ∈ cs, c.isAlphanum := fun c hc => isAlphanum_of_isHexDigit (isHexDigit_of_natural? h c hc)

/-! ## Numbers of fixed width -/

theorem below?_of_natural? {bound b n : Nat} {cs : List Char} (h : natural? b cs = some n)
    (hn : n < bound) : below? bound b cs = some n := by
  unfold below?
  split
  case h_1 cs =>
    -- a sign is no digit
    exact absurd (isHexDigit_of_natural? h '+' List.mem_cons_self) (by decide)
  case h_2 => rw [h, Option.filter_some, if_pos (by simpa using hn)]

theorem unsigned64?_of_natural? {b n : Nat} {cs : List Char} (h : natural? b cs = some n)
    (hn : n < 2 ^ 64) : unsigned64? b cs = some (UInt64.ofNat n) := by
  have hbound : n < UInt64.size := hn
  rw [unsigned64?, below?_of_natural? h hbound, Option.map_some]

theorem signed64?_of_natural? {b n : Nat} {cs : List Char} (h : natural? b cs = some n)
    (hn : n < 2 ^ 63) : signed64? b cs = some (Int64.ofInt n) := by
  unfold signed64?
  split
  case h_1 cs => exact absurd (isHexDigit_of_natural? h '-' List.mem_cons_self) (by decide)
  case h_2 =>
    have hbound : n < Int64.size / 2 := hn
    rw [below?_of_natural? h hbound]
    rfl

/-- One plus sign may stand in front of the digits. -/
theorem exists_digits_of_below? {bound b n : Nat} {cs : List Char}
    (h : below? bound b cs = some n) :
    ∃ ds, (cs = ds ∨ cs = '+' :: ds) ∧ natural? b ds = some n ∧ n < bound := by
  unfold below? at h
  split at h
  case h_1 ds =>
    obtain ⟨hn, hlt⟩ := Option.filter_eq_some_iff.1 h
    exact ⟨ds, Or.inr rfl, hn, of_decide_eq_true hlt⟩
  case h_2 =>
    obtain ⟨hn, hlt⟩ := Option.filter_eq_some_iff.1 h
    exact ⟨cs, Or.inl rfl, hn, of_decide_eq_true hlt⟩

/-- A bound that is lower only refuses what is not below it. -/
theorem below?_eq_filter {bound bound' : Nat} (hle : bound ≤ bound') (b : Nat) (cs : List Char) :
    below? bound b cs = (below? bound' b cs).filter (· < bound) := by
  have hfilter (x : Option Nat) : x.filter (· < bound) =
      (x.filter (· < bound')).filter (· < bound) := by
    rw [Option.filter_filter]
    congr 1
    funext n
    by_cases hn : n < bound
    · simp [hn, Nat.lt_of_lt_of_le hn hle]
    · simp [hn]
  unfold below?
  split <;> exact hfilter _

/-- The number is read with a sign bit if it leaves that bit free, and else refused. -/
theorem signed64?_of_unsigned64? {b : Nat} {cs : List Char} {v : UInt64}
    (h : unsigned64? b cs = some v) :
    signed64? b cs = if v.toNat < 2 ^ 63 then some (Int64.ofInt v.toNat) else none := by
  obtain ⟨n, hn, rfl⟩ := Option.map_eq_some_iff.1 h
  obtain ⟨ds, hds, hnat, hlt⟩ := exists_digits_of_below? hn
  have hle : Int64.size / 2 ≤ UInt64.size := by decide
  rw [UInt64.toNat_ofNat', Nat.mod_eq_of_lt hlt]
  unfold signed64?
  split
  case h_1 cs =>
    -- A minus sign is neither a digit nor the plus sign.
    rcases hds with rfl | heq
    · exact absurd (isHexDigit_of_natural? hnat '-' List.mem_cons_self) (by decide)
    · exact absurd (List.cons.inj heq).1 (by decide)
  case h_2 =>
    have hhalf : Int64.size / 2 = 2 ^ 63 := by decide
    rw [below?_eq_filter hle, hn, Option.filter_some, hhalf]
    by_cases hsmall : n < 2 ^ 63
    · rw [if_pos hsmall, if_pos (decide_eq_true hsmall)]
      rfl
    · rw [if_neg hsmall, if_neg (mt of_decide_eq_true hsmall)]
      rfl

/-- **What is read as a number of 64 bits**: its digits, with or without a plus sign in front. -/
theorem unsigned64?_eq_some_iff {b : Nat} {cs : List Char} {v : UInt64} :
    unsigned64? b cs = some v ↔
      ∃ ds, (cs = ds ∨ cs = '+' :: ds) ∧ natural? b ds = some v.toNat := by
  refine ⟨fun h => ?_, fun h => ?_⟩
  · obtain ⟨n, hn, rfl⟩ := Option.map_eq_some_iff.1 h
    obtain ⟨ds, hds, hnat, hlt⟩ := exists_digits_of_below? hn
    exact ⟨ds, hds, by rw [hnat, UInt64.toNat_ofNat', Nat.mod_eq_of_lt hlt]⟩
  · obtain ⟨ds, rfl | rfl, hnat⟩ := h
    · rw [unsigned64?_of_natural? hnat v.toNat_lt, UInt64.ofNat_toNat]
    · have hlt : v.toNat < UInt64.size := v.toNat_lt
      have hbelow : below? UInt64.size b ('+' :: ds) = some v.toNat := by
        show (natural? b ds).filter _ = some v.toNat
        rw [hnat, Option.filter_some, if_pos (decide_eq_true hlt)]
      rw [unsigned64?, hbelow, Option.map_some, UInt64.ofNat_toNat]

/-- A number that was read from a text without a sign is the one that its digits spell. -/
theorem natural?_of_unsigned64? {b : Nat} {cs : List Char} {v : UInt64}
    (h : unsigned64? b cs = some v) (hsign : '+' ∉ cs) : natural? b cs = some v.toNat := by
  obtain ⟨ds, rfl | rfl, hnat⟩ := unsigned64?_eq_some_iff.1 h
  · exact hnat
  · exact absurd List.mem_cons_self hsign

/-! ## Numerals in lower case -/

theorem caseBlind_isHexDigit : Text.CaseBlind isHexDigit := by
  intro c
  rw [isHexDigit, isHexDigit, ← digit?_toUpper, Text.toUpper_toLower, digit?_toUpper]

theorem natural?_lower (b : Nat) (cs : List Char) : natural? b (Text.lower cs) = natural? b cs := by
  rw [← natural?_upper, Text.upper_lower, natural?_upper]

theorem below?_of_head {bound b : Nat} {c : Char} (hc : c ≠ '+') (cs : List Char) :
    below? bound b (c :: cs) = (natural? b (c :: cs)).filter (· < bound) := by
  unfold below?
  split
  case h_1 heq => exact absurd (List.cons.inj heq).1 hc
  case h_2 => rfl

/-- A sign has no case. -/
theorem below?_lower (bound b : Nat) (cs : List Char) :
    below? bound b (Text.lower cs) = below? bound b cs := by
  cases cs with
  | nil => rfl
  | cons c cs =>
    by_cases hc : c = '+'
    · subst hc
      show (natural? b (Text.lower cs)).filter _ = (natural? b cs).filter _
      rw [natural?_lower]
    · have hlower : c.toLower ≠ '+' := mt (Text.toLower_eq_iff rfl).1 hc
      have hcons : Text.lower (c :: cs) = c.toLower :: Text.lower cs := rfl
      rw [below?_of_head hc, hcons, below?_of_head hlower, ← hcons, natural?_lower]

theorem unsigned64?_lower (b : Nat) (cs : List Char) :
    unsigned64? b (Text.lower cs) = unsigned64? b cs := by
  rw [unsigned64?, below?_lower, unsigned64?]

end FirmScan.Numeral
