import RouteTrees.Script.Type

/-!
# Functions

Functions in all their forms: declared and in expressions, members of objects and classes, and arrow
functions, whose parameters look like an expression in parentheses until the arrow is seen.
-/

namespace RouteTrees.Script.Grammar

open Parse

variable (g : Grammar)

/-- How a function runs. -/
structure Manner where
  asynchronous : Bool := false
  generator : Bool := false

/-- Reads something as the inside of a function. -/
def inFunction {α : Type} (m : Manner) (p : Parse α) : Parse α :=
  within (fun c => { c with
    membership := true, decorating := false, returning := true,
    awaiting := m.asynchronous, yielding := m.generator }) p

/-- Reads the statements of a function, braces included. What is only described has none. -/
def functionBody (m : Manner) : Parse Unit := do
  flawIf (← context).ambient
  expect "\x7b"
  discard <| inFunction m <| many (do pure !(← atClose "\x7d")) (g.statement true)
  expect "\x7d"

/-- Reads the head of a function from its type variables on. -/
def functionHead (m : Manner) (qualified : Bool) : Parse Parameters :=
  inFunction m do
    g.typeParameters
    let (found, _) ← g.parameters qualified
    discard g.returnType
    pure found

/-- Reads the body of a function. With types, one that need not have a body may end instead. -/
def bodyOrEnd (m : Manner) (needed : Bool) : Parse Unit := do
  if ← sees "\x7b" then g.functionBody m
  else if needed || !(← typed) then fail
  else endStatement

/-- Reads a member that is a function, from behind its name. -/
def method (m : Manner) (qualified needed : Bool) : Parse Parameters := do
  let found ← g.functionHead m qualified
  g.bodyOrEnd m needed
  pure found

/-- Notes parameters that an accessor may not have: `get` takes none and `set` takes one. -/
def checkAccessor (writes : Bool) (p : Parameters) : Parse Unit :=
  flawIf (if writes then p.rest || p.count ≠ 1 else p.rest || p.count ≠ 0)

/-- How a function is introduced. -/
inductive Introduction where
  | declaration
  | defaultExport
  | expression
deriving DecidableEq

/-- Reads a function from its `async` or `function` on, and answers how it runs and its name. A
declaration needs a name, which belongs to the surroundings; the name of an expression belongs to the
function. -/
def function (intro : Introduction) : Parse (Manner × Option String) := do
  let asynchronous ← eatWord "async"
  expectWord "function"
  let generator ← eat "*"
  let m : Manner := ⟨asynchronous, generator⟩
  let named ← do
    if isBindable (← peek) then
      pure (some (← if intro = .expression then inFunction m boundName else boundName))
    else
      flawIf (intro = .declaration)
      pure none
  discard <| g.functionHead m false
  g.bodyOrEnd m false
  pure (m, named)

/-- Whether an asynchronous function starts here: both words are on one line. -/
def atAsyncFunction : Parse Bool := do
  if ← atWord "async" then ahead do
    skip
    if ← afterBreak then pure false else atWord "function"
  else pure false

/-! ### Arrow functions -/

/-- How sure it is that an arrow function begins at a place. -/
inductive Likelihood where
  | no
  | maybe
  | yes
deriving DecidableEq

/-- Looks at what follows the left parenthesis that is the current token. -/
def afterParenthesis : Parse Likelihood := do
  skip
  if ← sees ")" then
    skip
    if ← seesAny ["=>", "\x7b"] then pure .yes
    else if ← sees ":" then pure (if ← typed then .yes else .no)
    else pure .no
  else if ← seesAny ["[", "\x7b"] then pure .maybe
  else if ← sees "..." then pure .yes
  else
    let qualified ← do
      if ← atAnyWord modifierWords then
        if ← atWord "async" then pure false else ahead (do skip; atReference)
      else pure false
    if qualified then
      skip
      pure (if ← atWord "as" then .no else .yes)
    else if (← atReference) || (← atWord "this") then
      skip
      if ← sees ":" then pure .yes
      else if ← sees "?" then
        skip
        pure (if ← seesAny [":", ",", "=", ")"] then .yes else .no)
      else if ← seesAny [",", "=", ")"] then pure .maybe
      else pure .no
    else pure .no

/-- Looks at what follows the left angle that is the current token. Where an angle may open an element,
the type variables of an arrow function need a mark that no element has. -/
def afterAngle : Parse Likelihood := do
  skip
  if (← atReference) || (← atWord "const") then
    if ← marked then
      discard <| eatWord "const"
      skip
      if ← atWord "extends" then
        skip
        pure (if ← seesAny ["=", ">", "/"] then .no else .yes)
      else pure (if ← seesAny [",", "="] then .yes else .no)
    else pure .maybe
  else pure .no

/-- Looks whether an arrow function with parentheses begins here. -/
def arrowLikelihood : Parse Likelihood := fun c =>
  let look : Parse Likelihood := do
    let asynchronous ← eatWord "async"
    if asynchronous && (← afterBreak) then pure .no
    else if ← sees "(" then afterParenthesis
    else if ← sees "<" then afterAngle
    else pure .no
  match look c with
  | some (l, _) => some (l, c)
  | none => some (.no, c)

/-- Reads the arrow of a function, which stands on the line of its parameters. -/
def arrow : Parse Unit := do
  if ← sees "=>" then
    flawIf (← afterBreak)
    bump
  else fail

/-- Reads an arrow function up to its arrow. Answers whether it is asynchronous, and whether a type is
written behind its parameters. It has no receiver. -/
def arrowHead : Parse (Bool × Bool) := do
  let asynchronous ← eatWord "async"
  within (fun c => { c with awaiting := c.awaiting || asynchronous }) do
    g.typeParameters
    let (_, received) ← g.parameters false
    flawIf received
    let annotated ← g.returnType
    arrow
    pure (asynchronous, annotated)

/-- Reads what an arrow function does: statements, or an expression that is its result. -/
def arrowBody (asynchronous returnType : Bool) : Parse Unit := do
  if ← sees "\x7b" then g.functionBody ⟨asynchronous, false⟩
  else discard <| within (fun c => { c with awaiting := asynchronous, yielding := false }) <|
    g.assignment returnType

/-- Reads an arrow function with parentheses. Where a colon may mean something else, one with a type
behind its parameters counts only if a colon follows it. -/
def parenthesizedArrow (returnType : Bool) : Parse Unit := do
  let (asynchronous, annotated) ← g.arrowHead
  g.arrowBody asynchronous returnType
  if !returnType && annotated then
    unless ← sees ":" do fail

/-- Reads an arrow function whose only parameter is a name behind `async`, if one begins here. -/
def asyncArrow (returnType : Bool) : Parse Bool := do
  let here ← do
    if ← atWord "async" then ahead do
      skip
      if ← afterBreak then pure false
      else if isBindable (← peek) then
        skip
        if ← afterBreak then pure false else sees "=>"
      else pure false
    else pure false
  if here then
    bump
    discard <| inFunction ⟨true, false⟩ boundName
    arrow
    g.arrowBody true returnType
    pure true
  else pure false

/-- Reads an arrow function with parentheses or behind `async`, if one begins here. -/
def arrowFunction (returnType : Bool) : Parse Bool := do
  match ← arrowLikelihood with
  | .yes =>
    g.parenthesizedArrow true
    pure true
  | .maybe =>
    match ← attempt (g.parenthesizedArrow returnType) with
    | some _ => pure true
    | none => g.asyncArrow returnType
  | .no => g.asyncArrow returnType

end RouteTrees.Script.Grammar
