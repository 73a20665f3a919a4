import RouteTrees.Script.Modifier
import RouteTrees.Script.Shape

/-!
# The grammar's entry points

The parts of the grammar refer to one another without end: a type may hold an expression, an expression
a function, a function statements. Each production is therefore written against a `Grammar`, the table
of those entry points that lead back; the knot is tied once, in `Module`, at a depth that no text
exceeds.
-/

namespace RouteTrees.Script

/-- What is kept of a statement that has been read. -/
inductive Item where
  /-- A statement that is nothing but a string literal. -/
  | directive (value : String)
  /-- An import, and whether anything of it is left when the program runs. -/
  | imports (source : String) (atRuntime : Bool)
  /-- An export of some names. -/
  | exports (names : List String)
  | other
deriving DecidableEq, Repr

/-- The entry points of the grammar. -/
structure Grammar where
  /-- An expression without commas; the argument says whether the type that a function returns may be
  written after its parameters. -/
  assignment : Bool → Parse Shape
  /-- An expression whose operators bind tighter than a given level. -/
  binary : Nat → Parse Shape
  /-- An operand with the operators before it. -/
  unary : Parse Shape
  /-- An operand with what is selected from it, without operators. -/
  subject : Parse Shape
  /-- A type. -/
  type : Parse Unit
  /-- An operand of a type with the operators before it. -/
  typeOperand : Parse Unit
  /-- What a declaration binds, a name or a pattern: the names in it. -/
  binding : Parse (List String)
  /-- An element of markup. -/
  element : Parse Unit
  /-- A statement; the argument says whether it may be a declaration. -/
  statement : Bool → Parse Item

namespace Grammar

open Parse

/-- Reads what stands between marks of its own: there `in` is an operator, and a decorator does not
end at a bracket. -/
def enclosed {α : Type} (p : Parse α) : Parse α :=
  within (fun c => { c with membership := true, decorating := false }) p

variable (g : Grammar)

/-- Reads an expression without commas, in which `in` is an operator. -/
def value : Parse Shape := enclosed (g.assignment true)

/-- Reads an expression: values with commas between them. The shape of a single one is kept. -/
def expression : Parse Shape := do
  let first ← g.assignment true
  if ← sees "," then
    discard <| many (sees ",") (do bump; g.assignment true)
    pure .other
  else pure first

/-- Reads an initial value, if there is one. -/
def initial : Parse Unit := do
  if ← eat "=" then discard g.value

/-- Reads the type of what is declared, if one is written. -/
def annotation : Parse Unit := do
  if ← typed then
    if ← eat ":" then g.type

/-- Reads what decorates a declaration, and answers whether anything does. -/
def decorators : Parse Bool := do
  let found ← many (sees "@") do
    bump
    discard <| within (fun c => { c with decorating := true }) g.subject
  pure !found.isEmpty

/-- Reads the key of a field, computed or not. -/
def key : Parse Unit := do
  match ← peek with
  | .word .. => discard name
  | .text _ => bump
  | .number => bump
  | _ =>
    expect "["
    discard g.value
    expect "]"

end Grammar

end RouteTrees.Script
