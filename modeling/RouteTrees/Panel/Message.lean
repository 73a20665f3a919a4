import RouteTrees.Json.Reader
import RouteTrees.Json.Writer
import RouteTrees.Text.Trim

/-!
# Messages of the panel

What a panel is asked to do. A message is an object whose `command` says what it is, or a list that begins
with the command; the command may stand anywhere in the object, so all of it is read before the rest is
looked at.
-/

namespace RouteTrees.Panel

open Json (Read)

/-- What a panel is asked to do. -/
inductive Message where
  | changeRoute (route : String)
deriving DecidableEq, Repr

namespace Message

/-- The only command there is. -/
def changeRouteCommand : String := "change-route"

/-- A message as it is sent. -/
def toJson : Message → Json
  | changeRoute route =>
    .object [("command", .text changeRouteCommand), ("route", .text route)]

/-- The same as text, without white space. -/
def text (m : Message) : String := String.ofList m.toJson.compact

/-- Reads the command, of which there is only one. -/
def readCommand : Read Unit := do
  let name ← Read.expectText "variant identifier"
  if name = changeRouteCommand then pure ()
  else Read.misfit (.unknownVariant name [changeRouteCommand])

/-- What has been read of a message in an object: whether the command, and the other fields. -/
structure Draft where
  command : Bool := false
  rest : List (String × Json) := []

/-- Reads a field into the draft: the command is known at once, all else is kept for later. -/
def readField (depth : Nat) (d : Draft) (name : String) : Read Draft := do
  if name = "command" then
    if d.command then Read.misfit (.duplicateField name)
    else
      Read.colon
      readCommand
      pure { d with command := true }
  else
    Read.colon
    let v ← Read.value depth
    pure { d with rest := d.rest ++ [(name, v)] }

/-- The route that a value names. -/
def routeOf : Json → Except Json.Error String
  | .text s => .ok s
  | v => .error (.misfit (.wrongType v.found "a string"))

/-- The route among the fields, and nothing else that says so a second time. -/
def routeOfFields (known : Option String) : List (String × Json) → Except Json.Error String
  | [] =>
    match known with
    | some route => .ok route
    | none => .error (.misfit (.missingField "route"))
  | (name, v) :: rest =>
    if name = "route" then
      if known.isSome then .error (.misfit (.duplicateField name))
      else do
        let route ← routeOf v
        routeOfFields (some route) rest
    else routeOfFields known rest

/-- The route among the items behind the command of a message. -/
def routeOfItems : List Json → Except Json.Error String
  | [] =>
    .error (.misfit (.wrongLength 0 "struct variant PanelMessage::ChangeRoute with 1 element"))
  | v :: rest => do
    let route ← routeOf v
    if rest.isEmpty then pure route
    else throw (.misfit (.wrongLength (rest.length + 1) "1 element in sequence"))

/-- Reads the items of a message that is a list: whether the command is there, and what is behind it. -/
def readItem (depth : Nat) (d : Bool × List Json) : Read (Bool × List Json) := do
  if d.1 then pure (true, d.2 ++ [← Read.value depth])
  else
    readCommand
    pure (true, d.2)

/-- Reads a message, from an object or from a list. -/
def read : Read Message := do
  match ← Read.peek with
  | some '[' =>
    Read.drop
    let (command, rest) ← Read.items (readItem (Read.depthLimit - 1)) (false, [])
    if command then
      let route ← liftM (routeOfItems rest)
      pure (.changeRoute route)
    else Read.misfit (.missingField "command")
  | some '{' =>
    Read.drop
    let d ← Read.fields (readField (Read.depthLimit - 1)) {}
    if d.command then
      Read.drop
      let route ← liftM (routeOfFields none d.rest)
      pure (.changeRoute route)
    else Read.misfit (.missingField "command")
  | _ => Read.wrongType "internally tagged enum PanelMessage"

/-- Reads a message that is a whole text, with white space around it. -/
def parse (raw : String) : Except Json.Error Message := Json.parse read (Text.trim raw)

end Message

end RouteTrees.Panel
