import FirmScan.Proofs.Numeral
import FirmScan.Text.HexBytes

/-!
# Which texts spell bytes

A text spells bytes exactly when its characters, blanks aside, are an even number of hex digits
(`exists_decode_iff`), and then there are half as many bytes as digits (`length_of_decode`).

Decoding looks at the encoded text, byte by byte. A hex digit is encoded as the one byte with its
code, while the encoding of a character outside ASCII starts with a byte of at least 128, which is
no digit. So the bytes are digits just when the characters are, and if they are, there are as many
of them.
-/

namespace FirmScan.HexBytes

/-! ## Encoded digits -/

theorem digit?_of_ge {b : UInt8} (h : 128 ≤ b.toNat) : digit? b = none := by
  have hall : ∀ n < 256, 128 ≤ n → Numeral.digit? (Char.ofNat n) = none := by decide +kernel
  exact hall b.toNat b.toNat_lt h

theorem digit?_ofNat_toNat {c : Char} (h : c.toNat ≤ 127) :
    digit? (UInt8.ofNat c.toNat) = Numeral.digit? c := by
  rw [digit?, UInt8.toNat_ofNat', Nat.mod_eq_of_lt (by omega), Char.ofNat_toNat]

/-- A character of ASCII is encoded as one byte, its code; in the encoding of any other the first
byte is too great for ASCII. -/
theorem utf8EncodeChar_cases (c : Char) :
    (c.toNat ≤ 127 ∧ String.utf8EncodeChar c = [UInt8.ofNat c.toNat]) ∨
      ∃ b rest, String.utf8EncodeChar c = b :: rest ∧ 127 < c.toNat ∧ 128 ≤ b.toNat := by
  have hge {n : Nat} (hlow : 128 ≤ n) (hhigh : n < 256) : 128 ≤ (UInt8.ofNat n).toNat := by
    rw [UInt8.toNat_ofNat', Nat.mod_eq_of_lt hhigh]
    exact hlow
  have hval : c.val.toNat = c.toNat := rfl
  delta String.utf8EncodeChar
  simp only [hval]
  by_cases h₁ : c.toNat ≤ 127
  · exact Or.inl ⟨h₁, if_pos h₁⟩
  · rw [if_neg h₁]
    by_cases h₂ : c.toNat ≤ 2047
    · rw [if_pos h₂]
      exact Or.inr ⟨_, _, rfl, by omega, hge (by omega) (by omega)⟩
    · rw [if_neg h₂]
      by_cases h₃ : c.toNat ≤ 65535
      · rw [if_pos h₃]
        exact Or.inr ⟨_, _, rfl, by omega, hge (by omega) (by omega)⟩
      · rw [if_neg h₃]
        exact Or.inr ⟨_, _, rfl, by omega, hge (by omega) (by omega)⟩

theorem isHexDigit_iff_encoded (c : Char) :
    (∀ b ∈ String.utf8EncodeChar c, (digit? b).isSome) ↔ Numeral.isHexDigit c := by
  rcases utf8EncodeChar_cases c with ⟨hle, hc⟩ | ⟨b, rest, hc, hlt, hb⟩
  · rw [hc, List.forall_mem_singleton, digit?_ofNat_toNat hle]
    rfl
  · constructor
    · intro hall
      have hsome := hall b (by rw [hc]; exact List.mem_cons_self)
      rw [digit?_of_ge hb] at hsome
      cases hsome
    · intro hdigit
      have hcode := Text.isAlphanum_iff.1 (Numeral.isAlphanum_of_isHexDigit hdigit)
      omega

theorem length_utf8EncodeChar_of_isHexDigit {c : Char} (h : Numeral.isHexDigit c) :
    (String.utf8EncodeChar c).length = 1 := by
  rcases utf8EncodeChar_cases c with ⟨-, hc⟩ | ⟨b, rest, hc, hlt, -⟩
  · rw [hc]
    rfl
  · have hcode := Text.isAlphanum_iff.1 (Numeral.isAlphanum_of_isHexDigit h)
    omega

theorem length_encoded {cs : List Char} (h : ∀ c ∈ cs, Numeral.isHexDigit c) :
    (cs.flatMap String.utf8EncodeChar).length = cs.length := by
  induction cs with
  | nil => rfl
  | cons c cs ih =>
    obtain ⟨hc, hcs⟩ := List.forall_mem_cons.1 h
    rw [List.flatMap_cons, List.length_append, length_utf8EncodeChar_of_isHexDigit hc, ih hcs,
      List.length_cons, Nat.add_comm]

theorem forall_encoded_iff (cs : List Char) :
    (∀ b ∈ cs.flatMap String.utf8EncodeChar, (digit? b).isSome) ↔
      ∀ c ∈ cs, Numeral.isHexDigit c := by
  simp only [List.mem_flatMap, ← isHexDigit_iff_encoded]
  constructor
  · intro h c hc b hb
    exact h b ⟨c, hc, hb⟩
  · intro h b ⟨c, hc, hb⟩
    exact h c hc b hb

/-! ## Pairs of digits -/

/-- Pairs of digits are decoded exactly when there is an even number of bytes and each is a
digit. -/
theorem exists_pairs_iff (index : Nat) (bs : List UInt8) :
    (∃ bytes, pairs index bs = .ok bytes) ↔ bs.length % 2 = 0 ∧ ∀ b ∈ bs, (digit? b).isSome := by
  fun_induction pairs index bs with
  | case1 => simp
  | case2 => simp
  | case3 index b c rest m n hc hb ih =>
    have hmap : (∃ bytes, (pairs (index + 2) rest).map (UInt8.ofNat (16 * m + n) :: ·) =
        .ok bytes) ↔
        ∃ bytes, pairs (index + 2) rest = .ok bytes := by
      cases pairs (index + 2) rest <;> simp [Except.map]
    have heven : (b :: c :: rest).length % 2 = rest.length % 2 := Nat.add_mod_right _ 2
    rw [hmap, ih, heven]
    simp [hb, hc]
  | case4 index b c rest hb => simp [hb]
  | case5 index b c rest m hc hb => simp [hc]

theorem length_of_pairs {index : Nat} {bs bytes : List UInt8} (h : pairs index bs = .ok bytes) :
    2 * bytes.length = bs.length := by
  fun_induction pairs index bs generalizing bytes with
  | case1 =>
    cases h
    rfl
  | case2 => cases h
  | case3 index b c rest m n hc hb ih =>
    cases hrest : pairs (index + 2) rest with
    | error fault =>
      rw [hrest] at h
      cases h
    | ok later =>
      rw [hrest] at h
      cases h
      have hlater := ih hrest
      simp only [List.length_cons]
      omega
  | case4 => cases h
  | case5 => cases h

/-! ## Texts -/

/-- **A text spells bytes** exactly when it has an even number of hex digits and nothing else but
blanks. -/
theorem exists_decode_iff (cs : List Char) :
    (∃ bytes, decode cs = .ok bytes) ↔
      (Text.removeBlanks cs).length % 2 = 0 ∧ ∀ c ∈ Text.removeBlanks cs, Numeral.isHexDigit c := by
  have hiff : (∃ bytes, decode cs = .ok bytes) ↔
      ((Text.removeBlanks cs).flatMap String.utf8EncodeChar).length % 2 = 0 ∧
        ∀ c ∈ Text.removeBlanks cs, Numeral.isHexDigit c := by
    rw [decode, ← forall_encoded_iff]
    generalize (Text.removeBlanks cs).flatMap String.utf8EncodeChar = encoded
    by_cases hodd : encoded.length % 2 = 1
    · simp [hodd]
    · simp only [if_neg hodd]
      exact exists_pairs_iff 0 encoded
  rw [hiff]
  exact and_congr_left fun h => by rw [length_encoded h]

theorem length_of_decode {cs : List Char} {bytes : List UInt8} (h : decode cs = .ok bytes) :
    bytes.length = (Text.removeBlanks cs).length / 2 := by
  have hdigits := ((exists_decode_iff cs).1 ⟨bytes, h⟩).2
  rw [decode] at h
  split at h
  · cases h
  · have hlength := length_of_pairs h
    rw [length_encoded hdigits] at hlength
    omega

end FirmScan.HexBytes
