import RouteTrees.Script.Cursor

/-!
# What an expression may become

An expression is read before it is known what it stands for: it may turn out to be the target of an
assignment, the label of a statement or the parameter of a function. `Shape` keeps of a read expression
what decides this, and nothing else.
-/

namespace RouteTrees.Script

/-- What is kept of an expression that has been read. -/
inductive Shape where
  /-- A name. -/
  | name
  /-- Another place that can be assigned, such as a field of an object. -/
  | place
  /-- A string literal. -/
  | text (value : String)
  /-- An array or object literal that can be taken apart by an assignment. Its `covers` are the
  shorthand fields with an initial value that become legal with it. -/
  | pattern (covers : List Nat)
  /-- An assignment; `plain` if by the equals sign. -/
  | assignment (plain : Bool)
  /-- A conjunction or disjunction. -/
  | logical
  /-- A choice of what is defined. -/
  | coalesce
  /-- Any other expression. -/
  | other
deriving DecidableEq, Inhabited

namespace Shape

/-- What an expression is with parentheses around it: what could be assigned to still can. -/
def parenthesized : Shape → Shape
  | .name => .place
  | .place => .place
  | _ => .other

/-- What an expression is with a type asserted of it. -/
def asserted : Shape → Shape
  | .name => .place
  | .place => .place
  | _ => .other

/-- A single place, as the operand of an increment has to be. -/
def isPlace : Shape → Bool
  | .name => true
  | .place => true
  | _ => false

/-- The shorthand fields that become legal when the expression is assigned to, or nothing if it cannot
be. -/
def target? : Shape → Option (List Nat)
  | .name => some []
  | .place => some []
  | .pattern covers => some covers
  | _ => none

/-- As `target?`, of a part of a pattern, which may have a default. -/
def partTarget? : Shape → Option (List Nat)
  | .assignment true => some []
  | s => s.target?

end Shape

/-- An element of an array or object literal. -/
inductive Element where
  | hole
  | item (shape : Shape)
  | spread (shape : Shape)
  /-- A shorthand field, at a place if it has an initial value. -/
  | shorthand (cover : Option Nat)
deriving DecidableEq

namespace Element

/-- The shorthand fields within an element that become legal in a pattern, or nothing if the element
cannot stand there. -/
def target? : Element → Option (List Nat)
  | .hole => some []
  | .item s => s.partTarget?
  | .spread _ => none
  | .shorthand cover => some cover.toList

/-- As `target?` of all elements of a literal: only the last may be spread, and then no comma may
follow it. -/
def targets? (trailing : Bool) : List Element → Option (List Nat)
  | [] => some []
  | [.spread s] => if trailing then none else s.target?
  | e :: es => do
    let here ← e.target?
    let rest ← targets? trailing es
    pure (here ++ rest)

/-- What a literal of some elements is: a pattern if each of them can stand in one. -/
def shape (elements : List Element) (trailing : Bool) : Shape :=
  match targets? trailing elements with
  | some covers => .pattern covers
  | none => .other

end Element

namespace Parse

/-- Takes a read expression as the target of an assignment. -/
def becomeTarget (s : Shape) : Parse Unit := fun c =>
  match s.target? with
  | some covers => some ((), { c with covers := c.covers.filter fun n => !covers.contains n })
  | none => none

/-- Takes a read expression as a single place to be changed. -/
def becomePlace (s : Shape) : Parse Unit := if s.isPlace then pure () else fail

/-- Notes a shorthand field with an initial value, and answers its place. -/
def cover : Parse Nat := fun c =>
  some (c.rest.length, { c with covers := c.rest.length :: c.covers })

end Parse

end RouteTrees.Script
