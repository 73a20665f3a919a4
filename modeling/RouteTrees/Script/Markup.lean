import RouteTrees.Script.Type

/-!
# Elements

Elements of markup within a script. Between the tags and after the equals sign of an attribute other
tokens are read than elsewhere, so an element leaves its last angle to whoever knows what comes next.
-/

namespace RouteTrees.Script.Grammar

open Parse

variable (g : Grammar)

/-- Goes to the next child, over the text before it. -/
def skipToChild : Parse Unit := fun c =>
  some ((), { c with token := (Token.nextChild c.rest).1, rest := (Token.nextChild c.rest).2 })

/-- Goes to the token that follows the equals sign of an attribute. -/
def skipToAttribute : Parse Unit := fun c =>
  some ((), { c with token := (Token.nextAttribute c.rest).1, rest := (Token.nextAttribute c.rest).2 })

/-- Takes the rest of a name, in which hyphens may stand. -/
def hyphens : Parse String := fun c =>
  some (String.ofList (hyphenated c.rest).1, { c with rest := (hyphenated c.rest).2 })

/-- Takes a name in which hyphens may stand. -/
def markupName : Parse String := do
  match ← peek with
  | .word n _ =>
    let more ← hyphens
    skip
    pure (n ++ more)
  | _ => fail

/-- Reads the name of an element: a word, two words with a colon between them, or the path to a value. -/
def elementName : Parse String := do
  let first ← markupName
  if ← eat ":" then
    let second ← markupName
    pure (first ++ ":" ++ second)
  else
    let fields ← many (sees ".") (do bump; name)
    flawIf (!fields.isEmpty && first.toList.contains '-')
    pure (".".intercalate (first :: fields))

/-- Reads an expression in braces, up to the closing brace. Between tags it may be missing or spread. -/
def container (child : Bool) : Parse Unit := do
  expect "\x7b"
  if ← sees "\x7d" then flawIf !child
  else
    if child then discard <| eat "..."
    discard g.value
    unless ← sees "\x7d" do fail

/-- Reads an attribute: a name with or without a value, or an object that is spread. -/
def markupAttribute : Parse Unit := do
  if ← eat "\x7b" then
    expect "..."
    discard g.value
    expect "\x7d"
  else
    discard markupName
    if ← eat ":" then discard markupName
    if ← sees "=" then
      skipToAttribute
      match ← peek with
      | .text _ => bump
      | _ =>
        if ← sees "\x7b" then
          g.container false
          bump
        else if ← sees "<" then
          g.element
          bump
        else fail

/-- Whether the angle that is the current token opens a closing tag. -/
def atClosingTag : Parse Bool := ahead do
  skip
  sees "/"

/-- Reads what stands between tags, up to the angle of the closing tag. -/
def children : Parse Unit :=
  repeating (fun _ => do
    match ← peek with
    | .prose =>
      skipToChild
      pure (.again ())
    | _ =>
      if ← sees "\x7b" then
        g.container true
        skipToChild
        pure (.again ())
      else if ← sees "<" then
        if ← atClosingTag then pure (.stop ())
        else
          g.element
          skipToChild
          pure (.again ())
      else fail) ()

/-- Reads an element or a group of elements up to its last angle. The tags have to agree. -/
def elementRule : Parse Unit := do
  expect "<"
  if ← sees ">" then
    skipToChild
    g.children
    expect "<"
    expect "/"
    unless ← sees ">" do fail
  else
    let opening ← elementName
    if ← typed then
      if ← seesAny ["<", "<<"] then g.typeArguments
    discard <| many (do pure !(← seesAny ["/", ">"])) g.markupAttribute
    if ← eat "/" then
      unless ← sees ">" do fail
    else
      skipToChild
      g.children
      expect "<"
      expect "/"
      let closing ← elementName
      flawIf (opening ≠ closing)
      unless ← sees ">" do fail

end RouteTrees.Script.Grammar
