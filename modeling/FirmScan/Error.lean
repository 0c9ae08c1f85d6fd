import FirmScan.Address
import FirmScan.FileFault
import FirmScan.Text.Quoted

/-!
# Errors

What can go wrong around an analysis: the manifest cannot be read, its regions do not fit together,
an address is misspelled, a batch is too large. `Error.message` holds every wording.

What an analysis finds wrong with a single slot is no error but a result: see `Problem`.
-/

namespace FirmScan

/-- The two kinds of region a snapshot holds. -/
inductive Region where
  | segment
  | function
  deriving DecidableEq, Repr

def Region.name : Region → String
  | .segment => "segment"
  | .function => "function"

/-- Why a text of hex digits has no bytes. -/
inductive HexFault where
  | oddLength
  | badByte (byte : UInt8) (index : Nat)
  deriving DecidableEq, Repr

def HexFault.message : HexFault → String
  | .oddLength => "Odd number of digits"
  | .badByte b i =>
    "Invalid character " ++ Text.quotedChar (Char.ofNat b.toNat) ++ " at position "
      ++ String.ofList (Numeral.decimal i)

inductive Error where
  | unreadable (cause : FileFault)
  | malformed
  | invalidHex (base : Address) (fault : HexFault)
  | invalidAddress (text : String)
  | overlap (region : Region) (start : Address)
  | pastEnd (region : Region) (start : Address)
  | batchTooLarge (count limit : UInt32)
  deriving DecidableEq, Repr

namespace Error

def message : Error → String
  | .unreadable cause => "IO error: " ++ cause.message
  | .malformed => "JSON error: not a session document"
  | .invalidHex base fault =>
    "Invalid hex data in segment at " ++ base.shortText ++ ": " ++ fault.message
  | .invalidAddress text => "Invalid address: " ++ Text.quoted text
  | .overlap region start => "Overlapping " ++ region.name ++ " at " ++ start.shortText
  | .pastEnd region start =>
    region.name ++ " at " ++ start.shortText ++ " extends past the end of the address space"
  | .batchTooLarge count limit =>
    "Configuration error: batch of " ++ String.ofList (Numeral.decimal count.toNat)
      ++ " slots exceeds limit of " ++ String.ofList (Numeral.decimal limit.toNat)

/-- The message together with the cause beneath it, where there is one. -/
def chain : Error → String
  | .unreadable cause => message (.unreadable cause) ++ ": " ++ cause.message
  | e => e.message

end Error

/-- An address, or the text that spells none. -/
def Address.ofText (text : String) : Except Error Address :=
  match Address.parse? text.toList with
  | some a => .ok a
  | none => .error (.invalidAddress text)

end FirmScan
