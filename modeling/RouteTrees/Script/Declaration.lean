import RouteTrees.Script.Expression

/-!
# Declarations

Variables, and the declarations that only a script with types has: aliases, interfaces, enumerations,
namespaces, and anything that is described without being defined.
-/

namespace RouteTrees.Script.Grammar

open Parse

variable (g : Grammar)

/-! ### Variables -/

/-- What is kept of a declared variable or pattern: its names, and whether it lacks an initial value
that it needs. -/
structure Variable where
  names : List String
  incomplete : Bool

/-- Reads a variable or pattern with its type and its initial value. A pattern needs a value, and so
does what is declared by a word for constants. -/
def declared (constant : Bool) : Parse Variable := do
  let pattern ← seesAny ["[", "\x7b"]
  let names ← g.binding
  if (← typed) && !pattern then discard <| eat "!"
  g.annotation
  if ← eat "=" then
    discard <| g.assignment true
    pure ⟨names, false⟩
  else pure ⟨names, pattern || constant⟩

/-- Reads the variables of one declaration. -/
def declarators : Parse (List Variable) := do
  let constant ← atAnyWord ["const", "using"]
  bump
  let first ← g.declared constant
  let more ← many (sees ",") (do bump; g.declared constant)
  pure (first :: more)

/-- Reads a statement that declares variables, and answers their names. -/
def variableStatement : Parse (List String) := do
  let found ← g.declarators
  let ambient := (← context).ambient
  flawIf (!ambient && found.any (·.incomplete))
  endStatement
  pure (found.flatMap (·.names))

/-! ### Declarations of types and of what is described -/

/-- Reads a member of an enumeration: a name, which is no number, and perhaps its value. -/
def enumMember : Parse Unit := do
  match ← peek with
  | .number =>
    flaw
    bump
  | .word .. => discard name
  | .text _ => bump
  | _ =>
    expect "["
    match ← peek with
    | .text _ => bump
    | _ =>
      flaw
      discard g.value
    expect "]"
  g.initial

/-- Reads an enumeration. -/
def enumeration : Parse Unit := do
  expectWord "enum"
  discard boundName
  expect "\x7b"
  discard <| list "\x7d" g.enumMember
  expect "\x7d"

/-- Reads a type alias. -/
def typeAlias : Parse Unit := do
  expectWord "type"
  discard boundName
  g.typeParameters
  expect "="
  g.type
  endStatement

/-- Reads an interface. -/
def interface : Parse Unit := do
  expectWord "interface"
  discard boundName
  g.typeParameters
  if ← eatWord "extends" then
    g.typeReference
    discard <| many (sees ",") (do bump; g.typeReference)
  g.typeBody

/-- Reads the statements of a namespace in their braces. -/
def namespaceBody : Parse Unit := do
  expect "\x7b"
  discard <| many (do pure !(← atClose "\x7d")) (g.statement true)
  expect "\x7d"

/-- Reads a namespace from its keyword on. One whose name is a string may be without a body. -/
def namespaceRule : Parse Unit := do
  bump
  match ← peek with
  | .text _ =>
    bump
    if ← sees "\x7b" then g.namespaceBody else endStatement
  | _ =>
    discard boundName
    discard <| many (sees ".") (do bump; name)
    g.namespaceBody

/-- Reads what stands for a name that is imported by assignment: the export of a module, or a name
within a namespace. -/
def importTarget : Parse Unit := do
  expect "="
  if (← atWord "require") && (← ahead (do skip; sees "(")) then
    bump
    expect "("
    match ← peek with
    | .text _ => bump
    | _ => fail
    expect ")"
  else
    discard name
    qualifiers
  endStatement

/-- Whether a declaration of a resource starts here, that is `using` and a name on one line. -/
def atUsing : Parse Bool := do
  if ← atWord "using" then ahead do
    skip
    if ← afterBreak then pure false else pure (isBindable (← peek))
  else pure false

/-- What a word says about whether a declaration begins with it, when it is the current token. -/
def declares (word : String) : Parse (Turn Unit Bool) := do
  skip
  if ["var", "let", "const", "function", "class", "enum"].contains word then pure (.stop true)
  else if word = "interface" || word = "type" then
    pure (.stop (!(← afterBreak) && isBindable (← peek)))
  else if word = "module" || word = "namespace" then
    let here ← match ← peek with
      | .text _ => pure true
      | l => pure (isBindable l)
    pure (.stop (here && !(← afterBreak)))
  else if ["abstract", "accessor", "async", "declare", "private", "protected", "public",
      "readonly"].contains word then
    if ← afterBreak then pure (.stop false)
    else if word = "declare" && (← atWord "type") then pure (.stop true)
    else pure (.again ())
  else if word = "static" then pure (.again ())
  else if word = "global" then
    if ← sees "\x7b" then pure (.stop true) else pure (.stop (isName (← peek)))
  else if word = "import" then
    match ← peek with
    | .text _ => pure (.stop true)
    | l => if isName l then pure (.stop true) else pure (.stop (← seesAny ["*", "\x7b"]))
  else pure (.stop false)

/-- Whether a declaration begins here that may stand only in a script with types. -/
def atTypedDeclaration : Parse Bool := do
  if ← typed then ahead <| repeating (fun _ => do
    match ← peek with
    | .word n _ =>
      if ← atUsing then pure (.stop true) else declares n
    | _ => pure (.stop false)) ()
  else pure false

/-- Reads the part of a declaration that follows its modifiers. -/
def declarationBody (found : List String) : Parse Unit := do
  match ← peek with
  | .word n _ =>
    let allow (more : List String) := allowModifiers ("declare" :: more) found
    if n = "type" then
      allow []
      g.typeAlias
    else if n = "interface" then
      allow []
      g.interface
    else if n = "enum" then
      allow ["const"]
      g.enumeration
    else if n = "class" then
      allow ["abstract"]
      discard <| g.classRule .declaration
    else if n = "namespace" || n = "module" || n = "global" then
      allow []
      if n = "global" then
        bump
        g.namespaceBody
      else g.namespaceRule
    else if n = "function" || n = "async" then
      allow ["async"]
      discard <| g.function .declaration
    else if n = "import" then
      allow []
      bump
      discard boundName
      importTarget
    else if n = "const" && (← ahead (do skip; atWord "enum")) then
      allow []
      bump
      g.enumeration
    else if ["var", "let", "const", "using"].contains n then
      allow []
      discard g.variableStatement
    else fail
  | _ => fail

/-- Reads a declaration of types. -/
def declaration : Parse Unit := do
  let found ← modifiers {}
  within (fun c => { c with ambient := c.ambient || found.contains "declare" })
    (g.declarationBody found)

end RouteTrees.Script.Grammar
