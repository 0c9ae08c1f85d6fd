import FirmScan.Json
import FirmScan.Json.Quoted

/-!
# Printing JSON

**Compact.** No blanks at all.

**Pretty.** Each item of an array and each field of an object on a line of its own, indented by two
spaces per level; `[]` and an empty pair of braces when there is none.

`noText` has no spelling of its own and prints as `null`; no report holds it.
-/

namespace FirmScan.Json

/-- The spelling of a value that holds no other. -/
def scalarText : Json → String
  | .bool true => "true"
  | .bool false => "false"
  | .natural n => String.ofList (Numeral.decimal n)
  | .numeral cs => String.ofList cs
  | .string s => quote s
  | _ => "null"

mutual

/-- A value without blanks. -/
def compact : Json → String
  | .array items => "[" ++ compactItems items ++ "]"
  | .object fields => "\x7b" ++ compactFields fields ++ "\x7d"
  | v => scalarText v

def compactItems : List Json → String
  | [] => ""
  | [v] => compact v
  | v :: rest => compact v ++ "," ++ compactItems rest

def compactFields : List (String × Json) → String
  | [] => ""
  | [(name, v)] => quote name ++ ":" ++ compact v
  | (name, v) :: rest => quote name ++ ":" ++ compact v ++ "," ++ compactFields rest

end

/-- A line break and the indentation of a level. -/
def newline (level : Nat) : String := String.ofList ('\n' :: List.replicate (2 * level) ' ')

mutual

/-- A value on several lines, whose first line stands at the given level. -/
def prettyAt (level : Nat) : Json → String
  | .array [] => "[]"
  | .array items => "[" ++ prettyItems (level + 1) items ++ newline level ++ "]"
  | .object [] => "\x7b\x7d"
  | .object fields => "\x7b" ++ prettyFields (level + 1) fields ++ newline level ++ "\x7d"
  | v => scalarText v

def prettyItems (level : Nat) : List Json → String
  | [] => ""
  | [v] => newline level ++ prettyAt level v
  | v :: rest => newline level ++ prettyAt level v ++ "," ++ prettyItems level rest

def prettyFields (level : Nat) : List (String × Json) → String
  | [] => ""
  | [(name, v)] => newline level ++ quote name ++ ": " ++ prettyAt level v
  | (name, v) :: rest =>
    newline level ++ quote name ++ ": " ++ prettyAt level v ++ "," ++ prettyFields level rest

end

def pretty (v : Json) : String := prettyAt 0 v

end FirmScan.Json
