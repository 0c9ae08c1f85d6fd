import FirmScan.AddressMap
import FirmScan.Disassembler
import FirmScan.Error
import FirmScan.Machine.Sentinel

/-!
# Snapshots

A snapshot is a disassembler held in memory: segments of bytes, functions with their listings,
comments on lines, and the journal of all write calls.

**Growth.** A segment or a function is added only if it ends below 2^64 and shares no address with
one of its kind. Its end is computed once and kept with it.

**Lookup.** A word is read from a segment that holds all its four bytes. The function at an address
is the one with the greatest entry not above the address, provided it reaches that far; since
functions do not overlap, no other can contain the address.

**Writing.** Each call is entered into the journal, whether it succeeds or not. A function is
renamed and commented at its entry only; a line is commented wherever a function contains it.
-/

namespace FirmScan

/-- Bytes in memory. -/
structure Segment where
  base : Address
  /-- The address behind the last byte. -/
  stop : Address
  bytes : List UInt8
  deriving DecidableEq, Repr

/-- A function and its listing. -/
structure FunctionRecord where
  info : FunctionInfo
  /-- The address behind the last byte. -/
  stop : Address
  lines : List String
  deriving DecidableEq, Repr

/-- A write call. -/
inductive Edit where
  | rename (target : Address) (name : String)
  | functionComment (target : Address) (text : String)
  | lineComment (target : Address) (text : String)
  deriving DecidableEq, Repr

/-- The word with the given bytes, lowest first. -/
def Word.ofBytes (b₀ b₁ b₂ b₃ : UInt8) : Word :=
  UInt32.ofNat (b₀.toNat + 0x100 * b₁.toNat + 0x10000 * b₂.toNat + 0x1000000 * b₃.toNat)

/-- The address `n` bytes further on, if it lies below 2^64. -/
def Address.plus? (a : Address) (n : Nat) : Option Address :=
  if a.toNat + n < UInt64.size then some (a + UInt64.ofNat n) else none

namespace Segment

/-- The word at an address, if the segment holds all of it. -/
def word? (g : Segment) (a : Address) : Option Word :=
  if g.base ≤ a ∧ (a.plus? 4).any (· ≤ g.stop) then
    match g.bytes.drop (a - g.base).toNat with
    | b₀ :: b₁ :: b₂ :: b₃ :: _ => some (.ofBytes b₀ b₁ b₂ b₃)
    | _ => none
  else none

/-- Whether each of two segments starts below the other's end. -/
def overlaps (g h : Segment) : Bool := g.base < h.stop && h.base < g.stop

end Segment

namespace FunctionRecord

def contains (f : FunctionRecord) (a : Address) : Bool := f.info.entry ≤ a && a < f.stop

/-- Whether each of two functions starts below the other's end. -/
def overlaps (f g : FunctionRecord) : Bool := f.info.entry < g.stop && g.info.entry < f.stop

def withName (f : FunctionRecord) (name : String) : FunctionRecord :=
  { f with info := { f.info with name := name } }

def withComment (f : FunctionRecord) (text : String) : FunctionRecord :=
  { f with info := { f.info with comment := some text } }

end FunctionRecord

structure Snapshot where
  segments : List Segment
  functions : AddressMap FunctionRecord
  lineComments : AddressMap String
  journal : List Edit

namespace Snapshot

def empty : Snapshot := ⟨[], .empty, .empty, []⟩

instance : Inhabited Snapshot := ⟨empty⟩

/-! ## Growth

An addition answers whether it succeeded, and leaves a snapshot either way. -/

/-- Add a region of `length` bytes from `base` on. It may neither pass the last address nor stop
where it is blocked; `grown` is the snapshot with a region that stops there. -/
def place (s : Snapshot) (kind : Region) (base : Address) (length : Nat)
    (blocked : Address → Bool) (grown : Address → Snapshot) : Except Error Unit × Snapshot :=
  match base.plus? length with
  | none => (.error (.pastEnd kind base), s)
  | some stop => if blocked stop then (.error (.overlap kind base), s) else (.ok (), grown stop)

/-- Add a segment. -/
def placeBytes (s : Snapshot) (base : Address) (bytes : List UInt8) :
    Except Error Unit × Snapshot :=
  s.place .segment base bytes.length
    (fun stop => s.segments.any (Segment.overlaps ⟨base, stop, bytes⟩))
    fun stop => { s with segments := s.segments ++ [⟨base, stop, bytes⟩] }

/-- Add a segment of words. -/
def placeWords (s : Snapshot) (base : Address) (words : List Word) : Except Error Unit × Snapshot :=
  s.placeBytes base (words.flatMap Word.bytes)

/-- Add a function; it covers one byte at least. -/
def placeFunction (s : Snapshot) (info : FunctionInfo) (size : UInt64) (lines : List String) :
    Except Error Unit × Snapshot :=
  s.place .function info.entry (max size.toNat 1)
    (fun stop => s.functions.values.any (FunctionRecord.overlaps ⟨info, stop, lines⟩))
    fun stop => { s with functions := s.functions.insert info.entry ⟨info, stop, lines⟩ }

/-- The snapshot after an addition, if it succeeded. -/
def accepted : Except Error Unit × Snapshot → Except Error Snapshot
  | (.ok (), s) => .ok s
  | (.error e, _) => .error e

def mapBytes (s : Snapshot) (base : Address) (bytes : List UInt8) : Except Error Snapshot :=
  accepted (s.placeBytes base bytes)

def mapWords (s : Snapshot) (base : Address) (words : List Word) : Except Error Snapshot :=
  accepted (s.placeWords base words)

def addFunction (s : Snapshot) (info : FunctionInfo) (size : UInt64) (lines : List String) :
    Except Error Snapshot :=
  accepted (s.placeFunction info size lines)

/-! ## Lookup -/

def readWord? (s : Snapshot) (a : Address) : Option Word := s.segments.findSome? (·.word? a)

/-- The function that contains an address. -/
def functionContaining? (s : Snapshot) (a : Address) : Option FunctionRecord :=
  ((s.functions.floor? a).map Prod.snd).filter (·.contains a)

def functionAt? (s : Snapshot) (a : Address) : Option FunctionInfo :=
  (s.functionContaining? a).map (·.info)

def listing (s : Snapshot) (a : Address) : List String :=
  ((s.functionContaining? a).map (·.lines)).getD []

def lineComment? (s : Snapshot) (a : Address) : Option String := s.lineComments.get? a

/-! ## Writing -/

/-- Enter a write call into the journal. -/
def record (s : Snapshot) (e : Edit) : Snapshot := { s with journal := s.journal ++ [e] }

/-- Rename the function that starts at `a`. An empty name is refused. -/
def rename (s : Snapshot) (a : Address) (name : String) : Bool × Snapshot :=
  let s := s.record (.rename a name)
  if (s.functions.get? a).isSome ∧ name ≠ "" then
    (true, { s with functions := s.functions.modify a (·.withName name) })
  else (false, s)

/-- Comment the function that starts at `a`. -/
def commentFunction (s : Snapshot) (a : Address) (text : String) : Bool × Snapshot :=
  let s := s.record (.functionComment a text)
  if (s.functions.get? a).isSome then
    (true, { s with functions := s.functions.modify a (·.withComment text) })
  else (false, s)

/-- Comment the line at `a`, which some function must contain. -/
def commentLine (s : Snapshot) (a : Address) (text : String) : Bool × Snapshot :=
  let s := s.record (.lineComment a text)
  if (s.functionContaining? a).isSome then
    (true, { s with lineComments := s.lineComments.insert a text })
  else (false, s)

instance : Disassembler Snapshot where
  readWord? := readWord?
  listing := listing
  functionAt? := functionAt?
  rename := rename
  commentFunction := commentFunction
  commentLine := commentLine

end Snapshot

end FirmScan
