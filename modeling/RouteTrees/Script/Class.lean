import RouteTrees.Script.Function

/-!
# Classes

A class with what it extends and its members. The head of a member is a run of modifiers and a name;
what follows the name tells a method from a field.
-/

namespace RouteTrees.Script.Grammar

open Parse

variable (g : Grammar)

/-- Reads the arguments of a generic type if they are there, whatever the line. -/
def heritageArguments : Parse Unit := do
  if ← typed then
    if ← seesAny ["<", "<<"] then g.typeArguments

/-- Reads what a class extends and implements: at most one class, and before the interfaces. -/
def heritage : Parse Unit :=
  repeating (fun (seen : Bool × Bool) => do
    if ← atWord "extends" then
      flawIf (seen.1 || seen.2)
      bump
      discard g.subject
      g.heritageArguments
      let more ← many (sees ",") do
        bump
        discard g.subject
        g.heritageArguments
      flawIf !more.isEmpty
      pure (.again (true, seen.2))
    else if (← typed) && (← atWord "implements") then
      flawIf seen.2
      bump
      g.typeReference
      discard <| many (sees ",") (do bump; g.typeReference)
      pure (.again (seen.1, true))
    else pure (.stop ())) (false, false)

/-- The modifiers that a member of a class may have. -/
def memberModifiers (types : Bool) : List String :=
  if types then ["abstract", "accessor", "async", "declare", "public", "private", "protected",
    "override", "readonly", "static"]
  else ["accessor", "async", "static"]

/-- What the name of a member says: whether it is the given name of the constructor, and whether that
is written as a private name. -/
structure MemberName where
  text : Option String
  hidden : Bool := false

/-- Reads the name of a member, in any of its spellings. -/
def memberName : Parse MemberName := do
  match ← peek with
  | .word n _ =>
    discard name
    pure { text := some n }
  | .text v =>
    bump
    pure { text := some v }
  | .hashed n =>
    bump
    flawIf (n = "constructor")
    pure { text := some n, hidden := true }
  | _ =>
    g.key
    pure { text := none }

/-- Reads the statements that run when a class is made. -/
def staticBlock : Parse Unit := do
  bump
  expect "\x7b"
  discard <| within (fun c => { c with
      membership := true, decorating := false, returning := false,
      awaiting := true, yielding := false }) <|
    many (do pure !(← atClose "\x7d")) (g.statement true)
  expect "\x7d"

/-- Reads the type and the initial value of a field. -/
def field : Parse Unit := do
  g.annotation
  if ← eat "=" then
    discard <| within (fun c => { c with
      membership := true, decorating := false, awaiting := false, yielding := false }) <|
      g.assignment true
  endStatement

/-- Reads an accessor behind its word. -/
def accessor (writes : Bool) (found : List String) : Parse Unit := do
  let isStatic := found.contains "static"
  flawIf (found.contains "async")
  let n ← g.memberName
  flawIf (!n.hidden && (n.text = some "constructor" && !isStatic ||
    n.text = some "prototype" && isStatic))
  let found ← g.method {} true false
  checkAccessor writes found

/-- Reads a member that is no accessor: parameters make it a method. -/
def methodOrField (found : List String) : Parse Unit := do
  let isStatic := found.contains "static"
  let asynchronous := found.contains "async"
  let generator ← eat "*"
  let n ← g.memberName
  let isNew := n.text = some "constructor" && !n.hidden && !isStatic
  let isShared := n.text = some "prototype" && !n.hidden && isStatic
  flawIf isShared
  if ← typed then
    if ← seesAny ["?", "!"] then bump
  if generator || (← seesAny ["(", "<"]) then
    flawIf (isNew && (asynchronous || generator))
    discard <| g.method ⟨asynchronous, generator⟩ true false
  else
    flawIf (isNew || asynchronous || n.text = some "constructor" && !n.hidden)
    g.field

/-- Reads one member of a class. -/
def member : Parse Unit := do
  discard g.decorators
  let found ← modifiers { constant := true, block := true }
  if (← atWord "static") && (← ahead (do skip; sees "\x7b")) then g.staticBlock
  else
    allowModifiers (memberModifiers (← typed)) found
    if ← eatQualifier "get" then g.accessor false found
    else if ← eatQualifier "set" then g.accessor true found
    else if ← (do
        if ← typed then
          if ← sees "[" then opensIndex else pure false
        else pure false) then g.indexSignature
    else g.methodOrField found

/-- Reads the members of a class in their braces. -/
def classBody : Parse Unit := do
  expect "\x7b"
  discard <| many (do pure !(← atClose "\x7d")) do
    if ← eat ";" then pure () else g.member
  expect "\x7d"

/-- Reads a class from its keyword on, and answers its name. A declaration needs one. -/
def classRule (intro : Introduction) : Parse (Option String) := do
  expectWord "class"
  let named ← do
    if ← atWord "implements" then pure false else pure (isBindable (← peek))
  let found ← if named then pure (some (← boundName)) else pure none
  flawIf (!named && intro = .declaration)
  g.typeParameters
  g.heritage
  g.classBody
  pure found

end RouteTrees.Script.Grammar
