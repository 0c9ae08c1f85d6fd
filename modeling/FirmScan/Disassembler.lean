import FirmScan.Address

/-!
# The disassembler behind an analysis

Everything an analysis asks of a disassembler goes through this interface. The state is any type,
and nothing is assumed of the answers: a disassembler may refuse a write, report one that it did not
make, or lose what it knew. What an analysis concludes therefore rests on what it reads, never on
what a write returned.
-/

namespace FirmScan

universe u

/-- What a disassembler knows of a function. -/
structure FunctionInfo where
  name : String
  entry : Address
  comment : Option String
  deriving DecidableEq, Repr

/-- Access to a disassembler whose state is a value of `σ`. A write answers whether it was done, and
leaves a new state behind. -/
class Disassembler (σ : Type u) where
  /-- The little-endian word at an address. -/
  readWord? : σ → Address → Option Word
  /-- The listing of the function that contains an address, a line for each item; empty if there is
  none. -/
  listing : σ → Address → List String
  /-- The function that contains an address. -/
  functionAt? : σ → Address → Option FunctionInfo
  rename : σ → Address → String → Bool × σ
  commentFunction : σ → Address → String → Bool × σ
  commentLine : σ → Address → String → Bool × σ

/-- A function starts at the address: it has a listing there, and its recorded entry is the address
itself. Landing in the middle of a function does not count. -/
def Disassembler.startsFunction {σ : Type u} [Disassembler σ] (s : σ) (a : Address) : Bool :=
  !(listing s a).isEmpty && (functionAt? s a).any (·.entry = a)

end FirmScan
