import RouteTrees.Script.Grammar

/-!
# Names and patterns that are bound

What stands on the left of a declaration and between the parentheses of a function.
-/

namespace RouteTrees.Script.Grammar

open Parse

variable (g : Grammar)

/-- Notes a break of the rule that a rest, of which nothing may follow, ends its list. -/
def restLast (rests : List Bool) (trailing : Bool) : Parse Unit :=
  flawIf (rests.dropLast.any id || trailing && rests.getLast? = some true)

/-- Reads what is bound and its type. -/
def boundPart : Parse (List String) := do
  let names ← g.binding
  g.annotation
  pure names

/-- Reads a binding that may have a default. -/
def boundElement : Parse (List String) := do
  let names ← g.boundPart
  g.initial
  pure names

/-- Reads a field of a pattern: a name of its own, or a key and what its value is bound to. -/
def boundField : Parse (List String) := do
  match ← peek with
  | .word n _ =>
    g.key
    if ← eat ":" then g.boundElement
    else if isBindable (.word n false) then
      checkOperator n
      g.initial
      pure [n]
    else fail
  | _ =>
    g.key
    expect ":"
    g.boundElement

/-- Reads an object pattern. Its rest is bound to a name. -/
def objectPattern : Parse (List String) := do
  expect "\x7b"
  let (parts, trailing) ← list "\x7d" do
    if ← eat "..." then
      let n ← boundName
      g.annotation
      pure (true, [n])
    else pure (false, ← g.boundField)
  restLast (parts.map (·.1)) trailing
  expect "\x7d"
  pure (parts.flatMap (·.2))

/-- Reads an array pattern, in which elements may be left out. -/
def arrayPattern : Parse (List String) := do
  expect "["
  let (parts, trailing) ← list "]" do
    if ← sees "," then pure (false, [])
    else if ← eat "..." then pure (true, ← g.boundPart)
    else pure (false, ← g.boundElement)
  restLast (parts.map (·.1)) trailing
  expect "]"
  pure (parts.flatMap (·.2))

/-- Reads a name or a pattern, and answers the names that it binds. -/
def bindingRule : Parse (List String) := do
  if ← sees "\x7b" then g.objectPattern
  else if ← sees "[" then g.arrayPattern
  else pure [← boundName]

/-- What is kept of a list of parameters: their number, and whether the last gathers the rest. -/
structure Parameters where
  count : Nat
  rest : Bool

/-- Reads the receiver of a function, which is written as its first parameter. -/
def receiver : Parse Bool := do
  if ← typed then
    if ← eatWord "this" then
      g.annotation
      unless ← sees ")" do expect ","
      pure true
    else pure false
  else pure false

/-- Reads a parameter, and answers whether it gathers the rest. -/
def parameter (qualified : Bool) : Parse Bool := do
  discard g.decorators
  let found ← modifiers {}
  let types ← typed
  allowModifiers (if !types then [] else if qualified then
    ["readonly", "public", "private", "protected", "override"] else ["readonly"]) found
  if ← eat "..." then
    discard g.boundPart
    pure true
  else
    discard g.binding
    if types then discard <| eat "?"
    g.annotation
    g.initial
    pure false

/-- Reads the parameters of a function with their parentheses. Those of a class member may be
`qualified`. Answers also whether a receiver is among them. -/
def parameters (qualified : Bool) : Parse (Parameters × Bool) := do
  expect "("
  let received ← g.receiver
  let (rests, trailing) ← list ")" (g.parameter qualified)
  let ambient := (← context).ambient
  restLast rests (trailing && !ambient)
  expect ")"
  pure (⟨(rests.filter (!·)).length, rests.any id⟩, received)

end RouteTrees.Script.Grammar
