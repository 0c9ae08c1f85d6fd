/-!
# Kinds of access

The mnemonics that matter to a survey of device registers: loads and stores of whole words, which
access memory, and bitwise operations, which carry a mask.
-/

namespace FirmScan

inductive Access where
  | read
  | write
  | bitOr
  | bitAnd
  | bitXor
  deriving DecidableEq, Repr

namespace Access

def name : Access → String
  | .read => "READ"
  | .write => "WRITE"
  | .bitOr => "OR"
  | .bitAnd => "AND"
  | .bitXor => "TOGGLE"

/-- Whether an access is of memory rather than of a mask. -/
def isMemory : Access → Bool
  | .read | .write => true
  | _ => false

def conditions : List (List Char) :=
  ["EQ", "NE", "CS", "HS", "CC", "LO", "MI", "PL", "VS", "VC", "HI", "LS", "GE", "LT", "GT", "LE",
   "AL"].map String.toList

def startsWith (stem : String) (m : List Char) : Bool := stem.toList.isPrefixOf m

/-- A stem alone or with one condition. -/
def isConditional (stem : String) (m : List Char) : Bool :=
  startsWith stem m &&
    (let rest := m.drop stem.length
     rest.isEmpty || conditions.contains rest)

/-- The kind of access of a mnemonic in upper case. Loads and stores of bytes, halves and pairs do
not count. -/
def ofMnemonic? (m : List Char) : Option Access :=
  if isConditional "LDR" m then some .read
  else if isConditional "STR" m then some .write
  else if startsWith "ORR" m || m = ['O', 'R'] || startsWith "ORI" m then some .bitOr
  else if startsWith "AND" m || startsWith "BIC" m then some .bitAnd
  else if startsWith "EOR" m || startsWith "XOR" m then some .bitXor
  else none

end Access

end FirmScan
