import RouteTrees.Script.Class
import RouteTrees.Script.Markup

/-!
# Expressions

Literals, selections, operators and assignments. A slash or a right angle is read as the shortest token;
where an operand is due the slash opens a regular expression, and where an operator is due the angle may
be part of a longer one.
-/

namespace RouteTrees.Script.Grammar

open Parse

variable (g : Grammar)

/-! ### Operands -/

/-- Reads one argument, which may be spread. -/
def argument : Parse Shape := do
  discard <| eat "..."
  g.value

/-- Reads the arguments of a call. -/
def arguments : Parse Unit := do
  expect "("
  discard <| list ")" g.argument
  expect ")"

/-- Reads an expression in parentheses. -/
def parentheses : Parse Shape := do
  expect "("
  let s ← enclosed g.expression
  expect ")"
  pure s.parenthesized

/-- Reads an array, in which elements may be left out. -/
def arrayLiteral : Parse Shape := do
  expect "["
  let (elements, trailing) ← list "]" do
    if ← sees "," then pure Element.hole
    else if ← eat "..." then pure (.spread (← g.value))
    else pure (.item (← g.value))
  expect "]"
  pure (Element.shape elements trailing)

/-- Reads a method, a key and its value, or a name that is both, behind its modifiers. -/
def namedField (found : List String) : Parse Element := do
  let generator ← eat "*"
  let refers ← atReference
  g.key
  if generator || (← seesAny ["(", "<"]) then
    discard <| g.method ⟨found.contains "async", generator⟩ false true
    pure (.item .other)
  else
    flawIf !found.isEmpty
    if ← eat ":" then pure (.item (← g.value))
    else if !refers then fail
    else if ← sees "=" then
      let place ← cover
      bump
      discard g.value
      pure (.shorthand (some place))
    else pure (.shorthand none)

/-- Reads an accessor of an object literal behind its `get` or `set`. -/
def fieldAccessor (writes : Bool) (found : List String) : Parse Element := do
  flawIf !found.isEmpty
  g.key
  checkAccessor writes (← g.method {} false true)
  pure (.item .other)

/-- Reads one field of an object. -/
def objectField : Parse Element := do
  if ← eat "..." then pure (.spread (← g.value))
  else
    let found ← modifiers {}
    allowModifiers ["async"] found
    if ← eatQualifier "get" then g.fieldAccessor false found
    else if ← eatQualifier "set" then g.fieldAccessor true found
    else g.namedField found

/-- Reads an object. -/
def objectLiteral : Parse Shape := do
  expect "\x7b"
  let (elements, trailing) ← list "\x7d" g.objectField
  expect "\x7d"
  pure (Element.shape elements trailing)

/-- Reads a regular expression, which only the place of its slash tells from a division. -/
def regularExpression : Parse Unit := fun c =>
  let start := match c.token.lexeme with
    | .sign "/" => some c.rest
    | .sign "/=" => some ('=' :: c.rest)
    | _ => none
  match start.bind pattern with
  | some after => skip { c with rest := after }
  | none => none

/-- Reads an import in an expression: a call, or what is known of the module itself. -/
def importExpression : Parse Unit := do
  bump
  if ← eat "." then
    if ← eatWord "meta" then pure ()
    else
      unless ← atAnyWord ["source", "defer"] do fail
      bump
      importCall
  else importCall
where
  /-- One or two arguments, a comma allowed behind them. -/
  importCall : Parse Unit := do
    expect "("
    discard g.value
    if ← eat "," then
      unless ← sees ")" do
        discard g.value
        discard <| eat ","
    expect ")"

/-- Reads the base of what a class extends. Something has to be selected from it. -/
def superBase : Parse Unit := do
  bump
  flawIf !(← seesAny [".", "[", "("])

/-- Reads a name that refers to something. -/
def reference : Parse Shape := do
  if ← atReference then
    discard name
    pure .name
  else fail

/-! ### Selections -/

/-- Whether an expression can start here. -/
def atExpressionStart : Parse Bool := do
  match ← peek with
  | .word n _ =>
    if n = "import" then ahead (do skip; seesAny ["(", "<", "."])
    else pure (!isReserved n || ["this", "super", "null", "true", "false", "function", "class", "new",
      "delete", "typeof", "void", "await", "yield"].contains n)
  | .hashed _ => pure true
  | .number => pure true
  | .text _ => pure true
  | .quasi .. => pure true
  | _ => seesAny ["(", "[", "\x7b", "/", "/=", "+", "-", "~", "!", "++", "--", "<", "@"]

/-- How tight an operator binds. -/
def precedence? (operator : String) : Option Nat :=
  if operator = "??" then some 1
  else if operator = "||" then some 2
  else if operator = "&&" then some 3
  else if operator = "|" then some 4
  else if operator = "^" then some 5
  else if operator = "&" then some 6
  else if ["==", "!=", "===", "!=="].contains operator then some 7
  else if ["<", ">", "<=", ">=", "instanceof", "in", "as", "satisfies"].contains operator then some 8
  else if ["<<", ">>", ">>>"].contains operator then some 9
  else if ["+", "-"].contains operator then some 10
  else if ["*", "/", "%"].contains operator then some 11
  else if operator = "**" then some 12
  else none

/-- The operator at the current token, if one is due there, and the text behind it. -/
def operatorHere : Parse (Option (String × List Char)) := fun c =>
  some (match c.token.lexeme with
    | .sign m => if m = ">" then some (rightAngle c.rest) else some (m, c.rest)
    | .word n _ =>
      if n = "in" then if c.context.membership then some (n, c.rest) else none
      else if n = "instanceof" then some (n, c.rest)
      else if n = "as" || n = "satisfies" then
        if c.context.dialect.types then some (n, c.rest) else none
      else none
    | _ => none, c)

/-- Takes an operator, given what follows it. -/
def takeOperator (rest : List Char) : Parse Unit := do
  fun c => some ((), { c with rest := rest })
  bump

/-- Whether what follows a list in angles shows that it holds types and no operands. -/
def endsTypeArguments : Parse Bool := do
  match ← peek with
  | .quasi .. => pure true
  | _ =>
    if ← sees "(" then pure true
    else if ← seesAny ["<", ">", "+", "-"] then pure false
    else if ← afterBreak then pure true
    else
      match ← operatorHere with
      | some (operator, _) =>
        if (precedence? operator).isSome then pure true else pure !(← atExpressionStart)
      | none => pure !(← atExpressionStart)

/-- Reads the type arguments of a call or of a value, if that is what begins here. -/
def callArguments : Parse Bool := do
  if ← typed then
    if ← seesAny ["<", "<<", "<<="] then
      let found ← attempt do
        splitLeftAngle
        expect "<"
        let (types, _) ← list ">" g.type
        match ← operatorHere with
        | some (">", _) => bump
        | _ => fail
        if ← endsTypeArguments then pure types else fail
      match found with
      | some types =>
        flawIf types.isEmpty
        pure true
      | none => pure false
    else pure false
  else pure false

/-- What has been selected so far. -/
structure Selection where
  shape : Shape
  /-- Some part of it may be missing. -/
  optional : Bool := false
  /-- It ends with type arguments. -/
  generic : Bool := false

/-- Reads the name behind a dot. -/
def fieldName : Parse Unit := do
  match ← peek with
  | .hashed _ => bump
  | _ => discard name

/-- Reads an index in brackets. -/
def index : Parse Unit := do
  expect "["
  discard <| enclosed g.expression
  expect "]"

/-- Reads what is selected behind the mark of an optional chain. -/
def optionalPart : Parse Unit := do
  bump
  if ← sees "[" then g.index
  else if ← sees "(" then g.arguments
  else if ← seesAny ["<", "<<"] then
    unless ← g.callArguments do fail
    unless ← sees "(" do fail
    g.arguments
  else
    match ← peek with
    | .quasi .. =>
      flaw
      discard <| template (discard <| enclosed g.expression)
    | _ => fieldName

/-- Reads what is selected from an operand: fields, and `calls` if they are allowed there. -/
def selections (calls : Bool) (start : Shape) : Parse Shape :=
  repeating (fun s => do
    let place (s : Selection) : Shape := if s.optional then .other else .place
    if ← eat "." then
      flawIf s.generic
      fieldName
      pure (.again { s with shape := place s, generic := false })
    else if ← sees "?." then
      flawIf !calls
      g.optionalPart
      pure (.again { shape := .other, optional := true })
    else if (← sees "[") && !(← context).decorating then
      g.index
      pure (.again { s with shape := place s, generic := false })
    else if (← sees "!") && (← typed) && !(← afterBreak) then
      bump
      pure (.again { s with shape := s.shape.asserted, generic := false })
    else if calls && (← sees "(") then
      g.arguments
      pure (.again { s with shape := .other, generic := false })
    else
      match ← peek with
      | .quasi .. =>
        flawIf s.optional
        discard <| template (discard <| enclosed g.expression)
        pure (.again { s with shape := .other, generic := false })
      | _ =>
        if ← g.callArguments then pure (.again { s with shape := .other, generic := true })
        else pure (.stop s.shape)) ({ shape := start } : Selection)

/-- Reads an operand that nothing is selected from yet, other than one that begins with `new`. -/
def operand : Parse Shape := do
  match ← peek with
  | .number =>
    bump
    pure .other
  | .text v =>
    bump
    pure (.text v)
  | .quasi .. =>
    flawIf !(← template (discard <| enclosed g.expression))
    pure .other
  | .word n _ =>
    if ["this", "null", "true", "false"].contains n then bump; pure .other
    else if n = "function" then discard (g.function .expression); pure .other
    else if n = "class" then discard (g.classRule .expression); pure .other
    else if n = "super" then superBase; pure .other
    else if n = "import" then g.importExpression; pure .other
    else if ← atAsyncFunction then discard (g.function .expression); pure .other
    else reference
  | _ =>
    if ← sees "(" then g.parentheses
    else if ← sees "[" then g.arrayLiteral
    else if ← sees "\x7b" then g.objectLiteral
    else if ← seesAny ["/", "/="] then regularExpression; pure .other
    else if ← sees "@" then
      discard g.decorators
      discard (g.classRule .expression)
      pure .other
    else fail

/-- Reads the words `new` before an operand, the operand and the arguments of each. An import is not
made anew. -/
def construction (depth : Nat) : Parse Shape := do
  match depth with
  | 0 => fail
  | depth + 1 =>
    if ← atWord "new" then
      bump
      if ← eat "." then
        expectWord "target"
        pure .other
      else
        flawIf ((← atWord "import") && !(← ahead (do skip; sees ".")))
        let base ← construction depth
        discard <| g.selections false base
        if ← sees "(" then g.arguments
        pure .other
    else g.operand

/-- Reads what calls, indices and templates are put behind. -/
def subjectRule : Parse Shape := do
  let base ← fun c => g.construction c.bound c
  g.selections true base

/-! ### Operators -/

/-- Whether an element starts here. -/
def atElement : Parse Bool := do
  if (← marked) && (← sees "<") then ahead do
    skip
    if isName (← peek) then pure true else sees ">"
  else pure false

/-- Reads an operand, and an increment behind it on the same line. -/
def update : Parse Shape := do
  if ← atElement then
    g.element
    bump
    pure .other
  else
    let s ← g.subject
    if (← seesAny ["++", "--"]) && !(← afterBreak) then
      becomePlace s
      bump
      pure .other
    else pure s

/-- Whether `await` or `yield` at the current token is an operator. Where the surroundings do not say so
an operand on the same line does, and that is a flaw. -/
def actsAsOperator (word : String) (here : Bool) : Parse Bool := do
  if ← atWord word then
    if here then pure true
    else ahead do
      skip
      if ← afterBreak then pure false
      else match ← peek with
        | .word .. => pure true
        | .number => pure true
        | .text _ => pure true
        | _ => pure false
  else pure false

/-- Reads an operand with the operators before it. None but an increment may stand before the base of a
power. -/
def unaryRule : Parse Shape := do
  let awaiting := (← context).awaiting
  if ← seesAny ["++", "--"] then
    bump
    becomePlace (← g.unary)
    pure .other
  else if (← seesAny ["+", "-", "!", "~"]) || (← atAnyWord ["typeof", "void", "delete"]) then
    bump
    discard g.unary
    if ← sees "**" then fail
    pure .other
  else if ← actsAsOperator "await" awaiting then
    flawIf !awaiting
    bump
    discard g.unary
    if ← sees "**" then fail
    pure .other
  else if (← sees "<") && (← typed) && !(← marked) then
    bump
    g.type
    expect ">"
    let s ← g.unary
    if ← sees "**" then fail
    pure s.asserted
  else g.update

/-- The shape of two operands joined by an operator. A choice may not be mixed with conjunctions or
disjunctions without parentheses. -/
def combine (operator : String) (left right : Shape) : Parse Shape := do
  if operator = "??" then
    flawIf (left = .logical || right = .logical)
    pure .coalesce
  else if operator = "&&" || operator = "||" then
    flawIf (left = .coalesce || right = .coalesce)
    pure .logical
  else pure .other

/-- Reads the operators behind an operand that bind tighter than a level, with their operands. Powers
group to the right. -/
def operations (level : Nat) (start : Shape) : Parse Shape :=
  repeating (fun left => do
    match ← operatorHere with
    | none => pure (.stop left)
    | some (operator, rest) =>
      match precedence? operator with
      | none => pure (.stop left)
      | some p =>
        if p > level || operator = "**" && p ≥ level then
          if operator = "as" || operator = "satisfies" then
            if ← afterBreak then pure (.stop left)
            else
              bump
              g.type
              pure (.again left.asserted)
          else
            takeOperator rest
            let right ← g.binary p
            pure (.again (← combine operator left right))
        else pure (.stop left)) start

/-- Reads an expression whose operators bind tighter than a level. A private name may stand before
`in`. -/
def binaryRule (level : Nat) : Parse Shape := do
  match ← peek with
  | .hashed _ =>
    bump
    if (← atWord "in") && level < 8 && (← context).membership then
      bump
      discard <| g.binary 8
      g.operations level .other
    else fail
  | _ =>
    let first ← g.unary
    g.operations level first

/-! ### Assignments -/

/-- Reads a condition's branches behind the condition, if there are any. -/
def branches (returnType : Bool) (condition : Shape) : Parse Shape := do
  if ← eat "?" then
    discard <| enclosed (g.assignment false)
    expect ":"
    discard <| g.assignment returnType
    pure .other
  else pure condition

/-- Reads what is yielded, which may be nothing. -/
def yieldExpression (yielding : Bool) : Parse Unit := do
  flawIf !yielding
  bump
  unless ← afterBreak do
    if ← eat "*" then discard <| g.assignment true
    else if (← seesAny [";", "\x7d", ")", "]", ":", ","]) || (← atWord "in") ||
        (← peek) = .finish then pure ()
    else discard <| g.assignment true

/-- Reads an expression without commas. -/
def assignmentRule (returnType : Bool) : Parse Shape := do
  let yielding := (← context).yielding
  if ← actsAsOperator "yield" yielding then
    g.yieldExpression yielding
    pure .other
  else if ← g.arrowFunction returnType then pure .other
  else
    let left ← g.binary 0
    if left = .name && (← sees "=>") then
      arrow
      g.arrowBody false returnType
      pure .other
    else
      match ← operatorHere with
      | some (operator, rest) =>
        if assignmentMarks.contains operator then
          if operator = "=" then becomeTarget left else becomePlace left
          takeOperator rest
          discard <| g.assignment returnType
          pure (.assignment (operator = "="))
        else g.branches returnType left
      | none => g.branches returnType left

end RouteTrees.Script.Grammar
