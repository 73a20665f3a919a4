import RouteTrees.Json.Reader
import RouteTrees.Json.Writer
import RouteTrees.Tree.Nested

/-!
# Trees in JSON

How a nested tree is written down and read. A node is an object, or a list of its fields in order; what
is unknown, missing or false is not written, and its children always are. A node and its children are two
levels of nesting.
-/

namespace RouteTrees

open Json (Read)

namespace Kind

/-- The kinds by their names. -/
def known : List (String × Kind) := [("client", .client), ("server", .server)]

/-- A kind is written as its name. -/
def toJson (k : Kind) : Json := .text k.name

/-- Reads a kind by its name. -/
def read (depth : Nat) : Read Kind := Read.variant depth known

/-- Reads a kind from a whole text. -/
def ofText (text : String) : Except Json.Error Kind := Json.parse (read Read.depthLimit) text

end Kind

namespace Nested

mutual

/-- A tree is written as an object; what a node does not have is left out. -/
def toJson : Nested → Json
  | node name kind path cycle children =>
    .object ([("name", .text name)] ++
      (kind.toList.map fun k => ("componentType", k.toJson)) ++
      (path.toList.map fun p => ("path", .text p)) ++
      (if cycle then [("cycle", .boolean true)] else []) ++
      [("children", .list (toJsonAll children))])

/-- What is below a node, written. -/
def toJsonAll : List Nested → List Json
  | [] => []
  | n :: ns => n.toJson :: toJsonAll ns

end

/-- A tree as compact text. -/
def text (n : Nested) : String := String.ofList n.toJson.compact

/-- What has been read of a node. -/
structure Draft where
  name : Option String := none
  kind : Option (Option Kind) := none
  path : Option (Option String) := none
  cycle : Option Bool := none
  children : Option (List Nested) := none

namespace Draft

/-- The node, if it has been given a name. -/
def finish? (d : Draft) : Option Nested :=
  d.name.map fun name =>
    .node name (d.kind.getD none) (d.path.getD none) (d.cycle.getD false) (d.children.getD [])

/-- Reads the name. -/
def readName (d : Draft) : Read Draft := do
  pure { d with name := some (← Read.expectText "a string") }

/-- Reads the kind, which may be null. -/
def readKind (depth : Nat) (d : Draft) : Read Draft := do
  pure { d with kind := some (← Read.optional (Kind.read depth)) }

/-- Reads the path, which may be null. -/
def readPath (d : Draft) : Read Draft := do
  pure { d with path := some (← Read.optional (Read.expectText "a string")) }

/-- Reads whether the node closes a cycle. -/
def readCycle (d : Draft) : Read Draft := do
  pure { d with cycle := some (← Read.expectBool) }

/-- Reads what is below, one level deeper. -/
def readChildren (depth : Nat) (child : Read Nested) (d : Draft) : Read Draft := do
  match ← Read.peek with
  | some '[' =>
    if depth = 0 then Read.malformed
    else
      Read.drop
      let found ← Read.items (fun found => do pure (found ++ [← child])) []
      pure { d with children := some found }
  | _ => Read.wrongType "a sequence"

/-- Reads a field that must not have been read before. -/
def once (name : String) (seen : Bool) (read : Read Draft) : Read Draft := do
  if seen then Read.misfit (.duplicateField name)
  else
    Read.colon
    read

/-- Reads the field of a name; an unknown one is skipped. -/
def readField (depth : Nat) (child : Read Nested) (d : Draft) (name : String) : Read Draft :=
  if name = "name" then once name d.name.isSome d.readName
  else if name = "componentType" then once name d.kind.isSome (d.readKind depth)
  else if name = "path" then once name d.path.isSome d.readPath
  else if name = "cycle" then once name d.cycle.isSome d.readCycle
  else if name = "children" then once name d.children.isSome (d.readChildren depth child)
  else do
    Read.colon
    Read.ignored
    pure d

end Draft

/-- Reads a node in which lists and objects are nested no deeper than given, by what reads its
children. -/
def readWith (depth : Nat) (child : Read Nested) : Read Nested := do
  match ← Read.peek with
  | none => Read.unfinished
  | some '[' =>
    if depth = 0 then Read.malformed
    else
      Read.drop
      let d ← Read.tuple [Draft.readName, Draft.readKind (depth - 1), Draft.readPath,
        Draft.readCycle, Draft.readChildren (depth - 1) child] {}
      match d.finish? with
      | some n => pure n
      | none => Read.misfit (.wrongLength 0 "struct SerializedTree with 5 elements")
  | some '{' =>
    if depth = 0 then Read.malformed
    else
      Read.drop
      let d ← Read.fields (Draft.readField (depth - 1) child) {}
      match d.finish? with
      | some n =>
        Read.drop
        pure n
      | none => Read.misfit (.missingField "name")
  | some _ => Read.wrongType "struct SerializedTree"

/-- Reads a tree in which lists and objects are nested no deeper than given. -/
def read : Nat → Read Nested
  | 0 => readWith 0 Read.malformed
  | 1 => readWith 1 Read.malformed
  | n + 2 => readWith (n + 2) (read n)

/-- Reads a tree from a whole text, up to the depth limit. -/
def ofText (text : String) : Except Json.Error Nested := Json.parse (read Read.depthLimit) text

/-- Reads a tree, or null, that is a whole text. -/
def ofText? (text : String) : Except Json.Error (Option Nested) :=
  Json.parse (Read.optional (read Read.depthLimit)) text

end Nested

end RouteTrees
