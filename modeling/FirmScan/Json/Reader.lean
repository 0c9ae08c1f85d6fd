import FirmScan.Json.Token

/-!
# Reading JSON

The reader takes one token at a time and keeps the containers that are still open on a stack, so its
depth is bounded by the document alone. The grammar is strict: no trailing comma, nothing after the
value.
-/

namespace FirmScan.Json

/-- A container that is still open, with what it holds so far in reverse. -/
inductive Frame where
  | array (items : List Json)
  | object (fields : List (Option String × Json)) (name : Option String)

/-- What may come next. -/
inductive Reading where
  | value (stack : List Frame)
  | firstItem (stack : List Frame)
  | firstName (stack : List Frame)
  | name (fields : List (Option String × Json)) (stack : List Frame)
  | colon (fields : List (Option String × Json)) (name : Option String) (stack : List Frame)
  | nextItem (items : List Json) (stack : List Frame)
  | nextField (fields : List (Option String × Json)) (stack : List Frame)
  | done (v : Json)

/-- An object, from its fields in reverse. -/
def ofFields (fields : List (Option String × Json)) : Json :=
  match fields.reverse.mapM fun f => f.1.map fun name => (name, f.2) with
  | some fs => .object fs
  | none => .noText

/-- A value is complete: it goes into the innermost container. -/
def supply (v : Json) : List Frame → Reading
  | [] => .done v
  | .array items :: stack => .nextItem (v :: items) stack
  | .object fields name :: stack => .nextField ((name, v) :: fields) stack

/-- A token where a value is due. -/
def startValue? (stack : List Frame) : Token → Option Reading
  | .scalar v => some (supply v stack)
  | .text (some s) => some (supply (.string s) stack)
  | .text none => some (supply .noText stack)
  | .mark .openArray => some (.firstItem stack)
  | .mark .openObject => some (.firstName stack)
  | .mark _ => none

def read? : Reading → Token → Option Reading
  | .value stack, t => startValue? stack t
  | .firstItem stack, .mark .closeArray => some (supply (.array []) stack)
  | .firstItem stack, t => startValue? (.array [] :: stack) t
  | .firstName stack, .mark .closeObject => some (supply (.object []) stack)
  | .firstName stack, .text name => some (.colon [] name stack)
  | .name fields stack, .text name => some (.colon fields name stack)
  | .colon fields name stack, .mark .colon => some (.value (.object fields name :: stack))
  | .nextItem items stack, .mark .comma => some (.value (.array items :: stack))
  | .nextItem items stack, .mark .closeArray => some (supply (.array items.reverse) stack)
  | .nextField fields stack, .mark .comma => some (.name fields stack)
  | .nextField fields stack, .mark .closeObject => some (supply (ofFields fields) stack)
  | _, _ => none

/-- The value of a whole document. -/
def parse? (text : String) : Option Json := do
  let ts ← tokens? text.toList
  match ← ts.foldlM read? (.value []) with
  | .done v => some v
  | _ => none

end FirmScan.Json
