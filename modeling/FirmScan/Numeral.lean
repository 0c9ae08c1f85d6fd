import FirmScan.Text.Blank

/-!
# Numerals

Digits, the numbers they spell, and the spelling of a number in base ten or sixteen.

A numeral is read whole: one leading sign, at least one digit, nothing else, and a value that fits
its width. Hex digits count in either case. Numbers are written with the fewest digits and padded on
the left.
-/

namespace FirmScan.Numeral

/-- The value of a digit in bases up to sixteen. -/
def digit? (c : Char) : Option Nat :=
  if '0' ≤ c ∧ c ≤ '9' then some (c.toNat - '0'.toNat)
  else if 'a' ≤ c ∧ c ≤ 'f' then some (c.toNat - 'a'.toNat + 10)
  else if 'A' ≤ c ∧ c ≤ 'F' then some (c.toNat - 'A'.toNat + 10)
  else none

def isHexDigit (c : Char) : Bool := (digit? c).isSome

/-- The value of a digit of the given base. -/
def digitIn? (base : Nat) (c : Char) : Option Nat := (digit? c).filter (· < base)

/-- The number with the given digits, most significant first. -/
def ofDigits (base : Nat) (ds : List Nat) : Nat := ds.foldl (fun n d => base * n + d) 0

/-- A non-empty run of digits. -/
def natural? (base : Nat) (cs : List Char) : Option Nat :=
  if cs.isEmpty then none else (cs.mapM (digitIn? base)).map (ofDigits base)

/-- A numeral below `bound`; one plus sign may stand in front. -/
def below? (bound base : Nat) : List Char → Option Nat
  | '+' :: cs => (natural? base cs).filter (· < bound)
  | cs => (natural? base cs).filter (· < bound)

/-- A numeral that fits 64 bits without a sign bit. -/
def unsigned64? (base : Nat) (cs : List Char) : Option UInt64 :=
  (below? UInt64.size base cs).map UInt64.ofNat

/-- A numeral that fits 64 bits with a sign bit; one sign may stand in front. -/
def signed64? (base : Nat) : List Char → Option Int64
  | '-' :: cs =>
    ((natural? base cs).filter (· ≤ Int64.size / 2)).map fun n => Int64.ofInt (-(n : Int))
  | cs => (below? (Int64.size / 2) base cs).map fun n => Int64.ofInt n

def decimal (n : Nat) : List Char := Nat.toDigits 10 n

def lowerHex (n : Nat) : List Char := Nat.toDigits 16 n

def upperHex (n : Nat) : List Char := Text.upper (Nat.toDigits 16 n)

/-- The report spelling of addresses and words: upper-case hex, at least eight digits. -/
def hex8 (n : Nat) : String := "0x" ++ String.ofList ((upperHex n).leftpad 8 '0')

end FirmScan.Numeral
