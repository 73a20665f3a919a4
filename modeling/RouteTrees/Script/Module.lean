import RouteTrees.Script.Statement

/-!
# Modules

A whole script, read as a module: the directives that open it, and the modules it imports when it runs.
The entry points of the grammar are tied here, to a depth that is never exceeded because every level of
the grammar takes a token before it comes back to itself; the bound leaves a few levels for each
character.
-/

namespace RouteTrees.Script

/-- The grammar that reads nothing. -/
def Grammar.empty : Grammar where
  assignment _ := Parse.fail
  binary _ := Parse.fail
  unary := Parse.fail
  subject := Parse.fail
  type := Parse.fail
  typeOperand := Parse.fail
  binding := Parse.fail
  element := Parse.fail
  statement _ := Parse.fail

/-- The grammar down to a depth. -/
def Grammar.ofDepth : Nat → Grammar
  | 0 => .empty
  | n + 1 => {
    assignment := fun returnType c => (Grammar.ofDepth n).assignmentRule returnType c
    binary := fun level c => (Grammar.ofDepth n).binaryRule level c
    unary := fun c => (Grammar.ofDepth n).unaryRule c
    subject := fun c => (Grammar.ofDepth n).subjectRule c
    type := fun c => (Grammar.ofDepth n).typeRule c
    typeOperand := fun c => (Grammar.ofDepth n).typeOperandRule c
    binding := fun c => (Grammar.ofDepth n).bindingRule c
    element := fun c => (Grammar.ofDepth n).elementRule c
    statement := fun declarations c => (Grammar.ofDepth n).statementRule declarations c }

/-- What a module says to whoever runs it. -/
structure Module where
  /-- The directives that open it. -/
  directives : List String
  /-- The modules it imports when it runs, in order. -/
  imports : List String
deriving DecidableEq, Repr

namespace Module

/-- The values of the directives that open a list of statements. -/
def leadingDirectives : List Item → List String
  | .directive v :: rest => v :: leadingDirectives rest
  | _ => []

/-- The modules that a list of statements imports at run time. -/
def runtimeImports (items : List Item) : List String :=
  items.filterMap fun
    | .imports source true => some source
    | _ => none

/-- The names that the items of a module export. -/
def exportedNames (items : List Item) : List String :=
  items.flatMap fun
    | .exports names => names
    | _ => []

/-- The bound of all repetitions and of the depth of the grammar, for a text. -/
def bound (cs : List Char) : Nat := 8 * cs.length + 32

/-- Drops a first line that names an interpreter. -/
def skipInterpreter (cs : List Char) : List Char :=
  match cs with
  | '#' :: '!' :: rest => rest.dropWhile fun c => !isLineBreak c
  | _ => cs

/-- The cursor at the beginning of a text. -/
def start (dialect : Dialect) (cs : List Char) : Cursor where
  token := (Token.next (skipInterpreter cs)).1
  rest := (Token.next (skipInterpreter cs)).2
  context := { dialect := dialect, awaiting := true }
  bound := bound cs

/-- Reads the items of a module up to the end of the text. -/
def items (g : Grammar) : Parse (List Item) := do
  let found ← Parse.many (do pure ((← Parse.peek) ≠ .finish)) (g.statement true)
  pure found

/-- Whether a text that has been read to its end is well formed. A script without types exports each
name once. -/
def accepts (dialect : Dialect) (c : Cursor) (found : List Item) : Bool :=
  !c.flawed && c.covers.isEmpty &&
    (dialect.types || (exportedNames found).Nodup)

/-- Reads a module, or nothing if the text is no module. -/
def parse? (dialect : Dialect) (text : String) : Option Module :=
  let cs := text.toList
  match items (Grammar.ofDepth (bound cs)) (start dialect cs) with
  | some (found, c) =>
    if accepts dialect c found then
      some { directives := leadingDirectives found, imports := runtimeImports found }
    else none
  | none => none

/-- What is said of the place where a text cannot be read on. -/
def mistake : String := "unexpected token"

/-- Reads a module, or says what keeps the text from being one: one text for each mistake. The reader gives up at
the first. -/
def parse (dialect : Dialect) (text : String) : Except (List String) Module :=
  match parse? dialect text with
  | some m => .ok m
  | none => .error [mistake]

end Module

end RouteTrees.Script
