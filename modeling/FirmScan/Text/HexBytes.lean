import FirmScan.Error

/-!
# Bytes spelled in hex

Two digits for each byte, with blanks anywhere. Faults are found on the encoded text, byte by byte:
a character outside ASCII counts as the several bytes that encode it, and it is the first of them
that is reported.
-/

namespace FirmScan.HexBytes

/-- The value of an encoded digit. -/
def digit? (b : UInt8) : Option Nat := Numeral.digit? (Char.ofNat b.toNat)

/-- Decode pairs of digits, of which the first stands at `index`. -/
def pairs (index : Nat) : List UInt8 → Except HexFault (List UInt8)
  | [] => .ok []
  | [_] => .error .oddLength
  | b :: c :: rest =>
    match digit? b, digit? c with
    | some m, some n => (pairs (index + 2) rest).map (UInt8.ofNat (16 * m + n) :: ·)
    | none, _ => .error (.badByte b index)
    | some _, none => .error (.badByte c (index + 1))

/-- The bytes that a text spells. -/
def decode (cs : List Char) : Except HexFault (List UInt8) :=
  let encoded := (Text.removeBlanks cs).flatMap String.utf8EncodeChar
  if encoded.length % 2 = 1 then .error .oddLength else pairs 0 encoded

end FirmScan.HexBytes
