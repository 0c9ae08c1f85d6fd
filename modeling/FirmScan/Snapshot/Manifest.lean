import FirmScan.Json.Reader
import FirmScan.Snapshot
import FirmScan.Text.HexBytes

/-!
# Manifests

A manifest is the document that a snapshot is loaded from: a list of segments and a list of
functions.

**Records.** Each record is an object or, shorter, an array of its fields in their order. In an
object unknown names are passed over and a known name may occur once. In an array the last fields
may be left out if they are optional, and there may be no more than the known ones.

**Loading.** The whole document is read first. Then the segments are mapped and the functions added,
each list in its order, and the first failure ends the load.
-/

namespace FirmScan

structure SegmentEntry where
  base : Address
  /-- The bytes, spelled in hex. -/
  bytes : String
  deriving DecidableEq, Repr

structure FunctionEntry where
  name : String
  entry : Address
  size : Option UInt64
  comment : Option String
  lines : List String
  deriving DecidableEq, Repr

structure Manifest where
  segments : List SegmentEntry
  functions : List FunctionEntry
  deriving DecidableEq, Repr

/-! ## Reading -/

namespace Manifest

/-- The values of the named fields of a record; a field that is absent has none. -/
def record? (names : List String) : Json → Option (List (Option Json))
  | .object fields =>
    names.mapM fun name =>
      match fields.filter (·.1 = name) with
      | [] => some none
      | [field] => some (some field.2)
      | _ => none
  | .array items =>
    if items.length ≤ names.length then some ((items.map some).rightpad names.length none) else none
  | _ => none

def string? : Json → Option String
  | .string s => some s
  | _ => none

/-- A plain number below 2^64. -/
def size? : Json → Option UInt64
  | .natural n => if n < UInt64.size then some (UInt64.ofNat n) else none
  | _ => none

/-- An address, as a number or as text. -/
def address? : Json → Option Address
  | .string s => Address.parse? s.toList
  | v => size? v

def list? {α : Type} (f : Json → Option α) : Json → Option (List α)
  | .array items => items.mapM f
  | _ => none

/-- A field that may be absent or null. -/
def nullable? {α : Type} (f : Json → Option α) : Option Json → Option (Option α)
  | none => some none
  | some .null => some none
  | some v => (f v).map some

/-- A list that may be absent. -/
def listOrEmpty? {α : Type} (f : Json → Option α) : Option Json → Option (List α)
  | none => some []
  | some v => list? f v

def segment? (v : Json) : Option SegmentEntry :=
  match record? ["base", "bytes"] v with
  | some [some base, some bytes] => do
    return { base := ← address? base, bytes := ← string? bytes }
  | _ => none

def function? (v : Json) : Option FunctionEntry :=
  match record? ["name", "entry_point", "size", "comment", "disassembly"] v with
  | some [some name, some entry, size, comment, lines] => do
    return { name := ← string? name, entry := ← address? entry, size := ← nullable? size? size,
             comment := ← nullable? string? comment, lines := ← listOrEmpty? string? lines }
  | _ => none

def ofJson? (v : Json) : Option Manifest :=
  match record? ["segments", "functions"] v with
  | some [segments, functions] => do
    return { segments := ← listOrEmpty? segment? segments,
             functions := ← listOrEmpty? function? functions }
  | _ => none

end Manifest

/-! ## Loading -/

/-- The bytes that a segment's text spells. -/
def SegmentEntry.decode (g : SegmentEntry) : Except Error (List UInt8) :=
  (HexBytes.decode g.bytes.toList).mapError (.invalidHex g.base)

/-- The size of a function: four bytes for each line, and for one line at least, if none is given. A
listing too long for that has the greatest size that there is. -/
def FunctionEntry.extent (f : FunctionEntry) : UInt64 :=
  f.size.getD (UInt64.ofNat (min (4 * max f.lines.length 1) (UInt64.size - 1)))

def FunctionEntry.info (f : FunctionEntry) : FunctionInfo := ⟨f.name, f.entry, f.comment⟩

namespace Snapshot

def loadSegment (s : Snapshot) (g : SegmentEntry) : Except Error Snapshot := do
  s.mapBytes g.base (← g.decode)

def loadFunction (s : Snapshot) (f : FunctionEntry) : Except Error Snapshot :=
  s.addFunction f.info f.extent f.lines

/-- The snapshot that a manifest describes. -/
def ofManifest (m : Manifest) : Except Error Snapshot := do
  let s ← m.segments.foldlM loadSegment empty
  m.functions.foldlM loadFunction s

/-- The snapshot that a document describes. -/
def ofJson (v : Json) : Except Error Snapshot :=
  match Manifest.ofJson? v with
  | some m => ofManifest m
  | none => .error .malformed

/-- Load a snapshot from the text of a manifest. -/
def ofText (text : String) : Except Error Snapshot :=
  match Json.parse? text with
  | some v => ofJson v
  | none => .error .malformed

end Snapshot

end FirmScan
