import RouteTrees.Json.Decimal
import RouteTrees.Text.Visible

/-!
# JSON values and why a text is none

`Json` is a value with the fields of objects as they were written. `Json.Error` tells apart a text that
breaks off, one that breaks a rule of the notation, and one that is well written but is not what its
reader is looking for.
-/

namespace RouteTrees

/-- A JSON value. Fields keep their order and may repeat. -/
inductive Json where
  | null
  | boolean (b : Bool)
  | integer (i : Int)
  | float (x : Float)
  | text (s : String)
  | list (items : List Json)
  | object (fields : List (String × Json))

namespace Json

/-- What was found where something else was looked for. -/
inductive Found where
  | null
  | boolean (b : Bool)
  | integer (i : Int)
  | float (x : Float)
  | text (s : String)
  | list
  | object

/-- How an error names what was found. -/
def Found.describe : Found → String
  | .null => "null"
  | .boolean b => "boolean \x60" ++ (if b then "true" else "false") ++ "\x60"
  | .integer i => "integer \x60" ++ toString i ++ "\x60"
  | .float x => "floating point \x60" ++ Decimal.text x ++ "\x60"
  | .text s => "string " ++ Text.visible s
  | .list => "sequence"
  | .object => "map"

/-- What a value is called where something else was looked for. -/
def found : Json → Found
  | .null => .null
  | .boolean b => .boolean b
  | .integer i => .integer i
  | .float x => .float x
  | .text s => .text s
  | .list _ => .list
  | .object _ => .object

/-- Why a well written text is not what its reader looks for. -/
inductive Misfit where
  | wrongType (found : Found) (expected : String)
  | unknownVariant (name : String) (known : List String)
  | duplicateField (name : String)
  | missingField (name : String)
  | wrongLength (length : Nat) (expected : String)

/-- A name between backticks, as errors show it. -/
def quoted (name : String) : String := "\x60" ++ name ++ "\x60"

/-- The names that were possible, as an error lists them. -/
def alternatives : List String → String
  | [a, b] => quoted a ++ " or " ++ quoted b
  | names => ", ".intercalate (names.map quoted)

/-- What an error says of a value that does not fit. -/
def Misfit.message : Misfit → String
  | .wrongType found expected => "invalid type: " ++ found.describe ++ ", expected " ++ expected
  | .unknownVariant name known =>
    "unknown variant " ++ quoted name ++ ", expected " ++ alternatives known
  | .duplicateField name => "duplicate field " ++ quoted name
  | .missingField name => "missing field " ++ quoted name
  | .wrongLength length expected =>
    "invalid length " ++ toString length ++ ", expected " ++ expected

/-- Why a text cannot be read. -/
inductive Error where
  /-- It ends too early. -/
  | unfinished
  /-- It breaks a rule of the notation. -/
  | malformed
  | misfit (why : Misfit)

/-! ### Parts of a value -/

/-- The value of a field; where a name is repeated the last one counts. -/
def field? (name : String) : Json → Option Json
  | .object fields => (fields.reverse.find? fun f => f.1 = name).map (·.2)
  | _ => none

/-- The text that a value is, if it is one. -/
def text? : Json → Option String
  | .text s => some s
  | _ => none

/-- The items of a list, if the value is one. -/
def items? : Json → Option (List Json)
  | .list items => some items
  | _ => none

def isNull : Json → Bool
  | .null => true
  | _ => false

/-- Puts a field among fields in the order of their names; a later value takes the place of an earlier
one. -/
def insertField (name : String) (value : Json) : List (String × Json) → List (String × Json)
  | [] => [(name, value)]
  | f :: rest =>
    if f.1 = name then (name, value) :: rest
    else if f.1 < name then f :: insertField name value rest
    else (name, value) :: f :: rest

/-- The fields of an object in the order of their names, each once. -/
def fields? : Json → Option (List (String × Json))
  | .object fields => some (fields.foldl (fun sorted f => insertField f.1 f.2 sorted) [])
  | _ => none

end Json

end RouteTrees
