/-!
# JSON values

The values that reports are made of and that manifests are read from.

A number that is written as plain digits is a `natural`; every other number keeps its spelling,
because nothing here computes with it. An object keeps its fields in order, and a name may occur
twice: what a second occurrence means is for the reader of the object to say.
-/

namespace FirmScan

inductive Json where
  | null
  | bool (b : Bool)
  | natural (n : Nat)
  /-- A number that is not plain digits: signed, with a fraction or with an exponent. -/
  | numeral (spelling : List Char)
  | string (s : String)
  /-- Well-formed JSON that stands for no text: a string with half of a surrogate pair in it, or an
  object with such a string for a name. -/
  | noText
  | array (items : List Json)
  | object (fields : List (String × Json))
  deriving Inhabited

namespace Json

/-- The first field of that name. -/
def field? (name : String) : Json → Option Json
  | .object fields => fields.lookup name
  | _ => none

def ofOption {α : Type} (f : α → Json) : Option α → Json
  | none => .null
  | some a => f a

/-- An array of strings. -/
def strings (ss : List String) : Json := .array (ss.map .string)

end Json

end FirmScan
