import RouteTrees.Script.Binding

/-!
# Types

The types that annotate a script. Nothing of a type is kept; what is decided here is where it ends and
whether it is well formed. Several constructs begin alike (a function type and a type in parentheses, a
mapped type and a record), so the reader looks ahead before it commits itself.
-/

namespace RouteTrees.Script.Grammar

open Parse

variable (g : Grammar)

/-- Reads in surroundings where `extends` begins a condition, or does not. -/
def conditional {α : Type} (allowed : Bool) (p : Parse α) : Parse α :=
  within (fun c => { c with unconditional := !allowed }) p

/-- Splits a shift operator, so that the current token is the left angle that opens it. -/
def splitLeftAngle : Parse Unit := do
  match ← peek with
  | .sign m =>
    if m = "<<" || m = "<<=" || m = "<=" then
      let rest ← fun c => some (c.rest, c)
      replace (.sign "<") (splitMark m rest)
    else pure ()
  | _ => pure ()

/-- Reads the arguments of a generic type, angles included. There has to be one. -/
def typeArguments : Parse Unit := do
  splitLeftAngle
  expect "<"
  let (found, _) ← list ">" g.type
  flawIf found.isEmpty
  expect ">"

/-- Reads the arguments of a generic type if they are there on the same line. -/
def typeArgumentsHere : Parse Unit := do
  if ← seesAny ["<", "<<", "<<=", "<="] then
    unless ← afterBreak do g.typeArguments

/-- Reads a type variable with its bound and its default. -/
def typeParameter : Parse Unit := do
  let found ← modifiers { constant := true }
  allowModifiers ["const", "in", "out"] found
  discard boundName
  if ← eatWord "extends" then g.type
  if ← eat "=" then g.type

/-- Reads type variables in angles, if they are there. There has to be one between angles. -/
def typeParameters : Parse Unit := do
  if ← typed then
    if ← eat "<" then
      let (found, _) ← list ">" g.typeParameter
      flawIf found.isEmpty
      expect ">"

/-- Reads a type or what a function asserts of a name. -/
def typeOrPredicate : Parse Unit := do
  let named ← ahead do
    if ← atReference then
      skip
      if ← atWord "is" then pure !(← afterBreak) else pure false
    else pure false
  if named then
    skip
    bump
  g.type

/-- Reads the type that a function returns, if one is written behind a colon. -/
def returnType : Parse Bool := do
  if ← typed then
    if ← eat ":" then
      conditional true g.typeOrPredicate
      pure true
    else pure false
  else pure false

/-- Reads the names behind dots. -/
def qualifiers : Parse Unit := do
  discard <| many (sees ".") (do bump; name)

/-- Reads a type by its name, with its arguments. -/
def typeReference : Parse Unit := do
  discard name
  qualifiers
  g.typeArgumentsHere

/-- Whether a type can start here. -/
def atTypeStart : Parse Bool := do
  match ← peek with
  | .word n _ =>
    pure (!isReserved n || ["void", "null", "this", "typeof", "new", "true", "false", "import",
      "function"].contains n)
  | .text _ => pure true
  | .number => pure true
  | .quasi .. => pure true
  | _ =>
    if ← seesAny ["\x7b", "[", "<", "|", "&", "*", "...", "(", "?", "!"] then pure true
    else if ← sees "-" then ahead do
      skip
      pure ((← peek) = .number)
    else pure false

/-- Goes over the start of a parameter: modifiers and a name or pattern. -/
def skipParameterStart : Parse Bool := do
  discard <| modifiers {}
  if ← atReference then skip; pure true
  else if ← atWord "this" then skip; pure true
  else if ← seesAny ["[", "\x7b"] then discard g.binding; pure true
  else pure false

/-- Whether a left parenthesis opens the parameters of a function type. -/
def opensFunctionType : Parse Bool := ahead do
  skip
  if ← seesAny [")", "..."] then pure true
  else if ← g.skipParameterStart then
    if ← seesAny [":", ",", "?", "="] then pure true
    else if ← sees ")" then skip; sees "=>"
    else pure false
  else pure false

/-- Whether a function type starts here, and not a type in parentheses. -/
def atFunctionType : Parse Bool := do
  if ← sees "<" then pure true
  else if ← sees "(" then g.opensFunctionType
  else if ← atWord "new" then pure true
  else if ← atWord "abstract" then ahead (do skip; atWord "new")
  else pure false

/-- Reads the type of a function. -/
def functionType : Parse Unit := do
  discard <| eatWord "abstract"
  discard <| eatWord "new"
  g.typeParameters
  discard <| g.parameters false
  expect "=>"
  g.typeOrPredicate

/-- Reads the chunks of a template after its first, with a type or an expression before each. -/
def templateRest (part : Parse Unit) (wellFormed : Bool) : Parse Bool :=
  repeating (fun ok => do
    part
    if ← sees "\x7d" then
      match resumeTemplate (← fun c => some (c.rest, c)) with
      | none => fail
      | some (good, closes, after) =>
        fun c => some ((), { c with rest := after })
        skip
        pure (if closes then .stop (ok && good) else .again (ok && good))
    else fail) wellFormed

/-- Reads a template and answers whether each of its escapes has a value. -/
def template (part : Parse Unit) : Parse Bool := do
  match ← peek with
  | .quasi ok closes =>
    bump
    if closes then pure ok else templateRest part ok
  | _ => fail

/-- Whether braces open a mapped type. -/
def opensMapped : Parse Bool := ahead do
  skip
  if ← seesAny ["+", "-"] then
    skip
    atWord "readonly"
  else
    if ← atWord "readonly" then skip
    if ← sees "[" then
      skip
      if ← atReference then
        skip
        atWord "in"
      else pure false
    else pure false

/-- Ends a member of a type, by a mark or where none is needed. -/
def endMember : Parse Unit := do
  if ← eat "," then pure () else endStatement

/-- Reads a type that maps keys to types. -/
def mappedType : Parse Unit := do
  expect "\x7b"
  if ← seesAny ["+", "-"] then
    bump
    expectWord "readonly"
  else discard <| eatWord "readonly"
  expect "["
  discard boundName
  expectWord "in"
  g.type
  if ← eatWord "as" then g.type
  expect "]"
  if ← seesAny ["+", "-"] then
    bump
    expect "?"
  else discard <| eat "?"
  if ← eat ":" then g.type
  endMember
  expect "\x7d"

/-- Whether a bracket opens an index signature, and not a computed key. -/
def opensIndex : Parse Bool := ahead do
  skip
  let close : Parse Bool := do
    if ← seesAny [":", ","] then pure true
    else if ← sees "?" then
      skip
      seesAny [":", ",", "]"]
    else pure false
  if ← seesAny ["...", "]"] then pure true
  else if ← atAnyWord modifierWords then
    skip
    if ← atReference then pure true else close
  else if ← atReference then
    skip
    close
  else pure false

/-- Reads an index signature: one parameter, and the type of what it finds. -/
def indexSignature : Parse Unit := do
  expect "["
  let (found, _) ← list "]" do
    discard name
    expect ":"
    g.type
  flawIf (found.length ≠ 1)
  expect "]"
  expect ":"
  g.type
  endMember

/-- Reads type parameters, parameters and the returned type. -/
def signature : Parse Unit := do
  g.typeParameters
  discard <| g.parameters false
  discard g.returnType

/-- Reads one member of an object type. -/
def typeMember : Parse Unit := do
  if ← seesAny ["(", "<"] then
    g.signature
    endMember
  else if ← (do if ← atWord "new" then ahead (do skip; seesAny ["(", "<"]) else pure false) then
    bump
    g.signature
    endMember
  else
    let found ← modifiers {}
    allowModifiers ["readonly"] found
    if ← eatQualifier "get" then
      g.key
      g.signature
      endMember
    else if ← eatQualifier "set" then
      g.key
      g.signature
      endMember
    else if ← (do if ← sees "[" then opensIndex else pure false) then g.indexSignature
    else
      g.key
      discard <| eat "?"
      if ← seesAny ["(", "<"] then g.signature else g.annotation
      endMember

/-- Reads the members of a type that describes objects, braces included. -/
def typeBody : Parse Unit := do
  expect "\x7b"
  discard <| many (do pure !(← atClose "\x7d")) g.typeMember
  expect "\x7d"

/-- Reads an element of a tuple type, which may be named, optional or the rest. -/
def tupleElement : Parse Unit := do
  let named ← ahead do
    discard <| eat "..."
    if isName (← peek) then
      skip
      discard <| eat "?"
      sees ":"
    else pure false
  if named then
    discard <| eat "..."
    discard name
    discard <| eat "?"
    expect ":"
    g.type
  else
    discard <| eat "..."
    g.type
    discard <| eat "?"

/-- Reads the type of a module. -/
def importType : Parse Unit := do
  discard <| eatWord "typeof"
  expectWord "import"
  expect "("
  g.type
  if ← eat "," then
    unless ← sees ")" do
      discard g.value
      discard <| eat ","
  expect ")"
  qualifiers
  g.typeArgumentsHere

/-- Reads the type of a value that is named. -/
def typeQuery : Parse Unit := do
  if ← ahead (do skip; atWord "import") then g.importType
  else
    bump
    discard name
    discard <| many (sees ".") do
      bump
      match ← peek with
      | .hashed _ => bump
      | _ => discard name
    g.typeArgumentsHere

/-- The words that stand for a type of their own. -/
def basicTypes : List String :=
  ["any", "unknown", "string", "number", "bigint", "symbol", "boolean", "undefined", "never",
   "object"]

/-- Reads a type that starts with a word. -/
def wordType (word : String) : Parse Unit := do
  if basicTypes.contains word then
    if ← ahead (do skip; sees ".") then g.typeReference else bump
  else if word = "null" || word = "true" || word = "false" || word = "void" then bump
  else if word = "this" then
    bump
    if ← atWord "is" then
      unless ← afterBreak do
        bump
        g.type
  else if word = "typeof" then g.typeQuery
  else if word = "import" then g.importType
  else if word = "asserts" then
    let asserted ← ahead do
      skip
      if ← afterBreak then pure false
      else if ← atReference then pure true
      else atWord "this"
    if asserted then
      bump
      discard name
      if ← eatWord "is" then g.type
    else g.typeReference
  else g.typeReference

/-- Reads a type without operators behind it. -/
def basicType : Parse Unit := do
  match ← peek with
  | .word n _ => g.wordType n
  | .text _ => bump
  | .number => bump
  | .quasi .. => flawIf !(← template g.type)
  | _ =>
    if ← eat "-" then
      if (← peek) = .number then bump else fail
    else if ← sees "\x7b" then
      if ← opensMapped then g.mappedType else g.typeBody
    else if ← eat "[" then
      discard <| list "]" g.tupleElement
      expect "]"
    else if ← eat "(" then
      g.type
      expect ")"
    else fail

/-- Reads what may follow a type on the same line: brackets, and marks of what may be missing. -/
def typeSuffixes : Parse Unit :=
  repeating (fun _ => do
    if ← afterBreak then pure (.stop ())
    else if ← eat "!" then pure (.again ())
    else if ← sees "?" then
      if ← ahead (do skip; atTypeStart) then pure (.stop ())
      else
        bump
        pure (.again ())
    else if ← eat "[" then
      if ← atTypeStart then g.type
      expect "]"
      pure (.again ())
    else pure (.stop ())) ()

/-- Reads the type variable that a condition binds, with its bound if it is none of the condition. -/
def inferType : Parse Unit := do
  bump
  discard boundName
  discard <| attempt do
    expectWord "extends"
    conditional false g.type
    unless (← context).unconditional do
      if ← sees "?" then fail

/-- Reads an operand of a type with the operators before it. -/
def typeOperandRule : Parse Unit := do
  if ← atAnyWord ["keyof", "unique", "readonly"] then
    bump
    g.typeOperand
  else if ← atWord "infer" then g.inferType
  else conditional true do
    g.basicType
    g.typeSuffixes

/-- Reads operands joined by one operator, which may also stand before the first. -/
def joined (operator : String) (operand : Parse Unit) : Parse Unit := do
  discard <| eat operator
  operand
  discard <| many (sees operator) (do bump; operand)

/-- Reads a type with all its operators. -/
def typeRule : Parse Unit := do
  if ← g.atFunctionType then g.functionType
  else
    joined "|" (joined "&" g.typeOperand)
    let more ← atWord "extends"
    if more && !(← context).unconditional && !(← afterBreak) then
      bump
      conditional false g.type
      expect "?"
      conditional true g.type
      expect ":"
      conditional true g.type

end RouteTrees.Script.Grammar
