import RouteTrees.Script.Declaration

/-!
# Imports and exports

The statements that link a module to others. Of an import it is kept whether anything of it is left when
the program runs: an import of types alone is not.
-/

namespace RouteTrees.Script.Grammar

open Parse

variable (g : Grammar)

/-! ### Parts of both -/

/-- Reads the name of a module, in quotes. -/
def moduleName : Parse String := do
  match ← peek with
  | .text v =>
    bump
    pure v
  | _ => fail

/-- Reads an attribute of an import: a key and a string. -/
def importAttribute : Parse Unit := do
  match ← peek with
  | .text _ => bump
  | _ => discard name
  expect ":"
  discard moduleName

/-- Reads the attributes of an import or export, if there are any. The older of their two words has to
stand on the same line. -/
def importAttributes : Parse Unit := do
  let here ← do
    if ← atWord "with" then pure true
    else if ← atWord "assert" then pure !(← afterBreak)
    else pure false
  if here then
    bump
    expect "\x7b"
    discard <| list "\x7d" importAttribute
    expect "\x7d"

/-- How a name is passed on between modules. -/
inductive LinkName where
  | word (name : String)
  | quoted (name : String)
deriving DecidableEq

namespace LinkName

/-- What a name says, in quotes or not. -/
def text : LinkName → String
  | .word n => n
  | .quoted n => n

/-- Whether the name can be bound in the module that imports it. -/
def isBindable : LinkName → Bool
  | .word n => Parse.isBindable (.word n false)
  | .quoted _ => false

/-- Whether the name can refer to something in the module that exports it. -/
def isLocal : LinkName → Bool
  | .word n => !isReserved n && !futureReservedWords.contains n
  | .quoted _ => false

end LinkName

/-- Whether a name of an import or export stands here. -/
def atLinkName : Parse Bool := do
  match ← peek with
  | .word .. => pure true
  | .text _ => pure true
  | _ => pure false

/-- Reads a name of an import or export, in quotes or not. -/
def linkName : Parse LinkName := do
  match ← peek with
  | .text v =>
    bump
    pure (.quoted v)
  | _ => pure (.word (← name))

/-- A name as one module has it and as the other has it; `typeOnly` if it is marked as a type. -/
structure Link where
  source : LinkName
  target : LinkName
  typeOnly : Bool

/-- Reads what follows a name: another name for it, or nothing. -/
def renamed (typeOnly : Bool) (first : LinkName) : Parse Link := do
  if ← eatWord "as" then pure ⟨first, ← linkName, typeOnly⟩ else pure ⟨first, first, typeOnly⟩

/-- Reads a name or a pair of names. With types, `type` before a name marks it, unless it is itself the
name: `type as as` renames `type`, and `type as` marks the name `as`. -/
def link : Parse Link := do
  let first ← linkName
  if first = .word "type" && (← typed) then
    if ← atWord "as" then
      let as₁ ← linkName
      if ← atWord "as" then
        let as₂ ← linkName
        if ← atLinkName then pure ⟨as₁, ← linkName, true⟩ else pure ⟨first, as₂, false⟩
      else if ← atLinkName then pure ⟨first, ← linkName, false⟩
      else pure ⟨as₁, as₁, true⟩
    else if ← atLinkName then renamed true (← linkName)
    else renamed false first
  else renamed false first

/-- Reads pairs of names in braces. None may be marked where the whole list is. -/
def links (typeOnly : Bool) : Parse (List Link) := do
  expect "\x7b"
  let (found, _) ← list "\x7d" link
  flawIf (typeOnly && found.any (·.typeOnly))
  expect "\x7d"
  pure found

/-! ### Imports -/

/-- What an import brings in: the names in braces, if there are braces, and whether anything else. -/
structure Clause where
  links : List Link
  other : Bool

/-- Reads what an import brings in behind its default: all as one name, or names in braces. -/
def namedClause (typeOnly : Bool) : Parse Clause := do
  if ← eat "*" then
    expectWord "as"
    discard boundName
    pure ⟨[], true⟩
  else
    let found ← links typeOnly
    if !found.all (·.target.isBindable) then fail
    found.forM fun l => checkOperator l.target.text
    pure ⟨found, false⟩

/-- Reads the module of an import and what follows it; `runs` if it is imported at run time. -/
def importSource (runs : Bool) : Parse Item := do
  let source ← moduleName
  importAttributes
  endStatement
  pure (.imports source runs)

/-- Reads the rest of an import from its clause on. -/
def importRest (typeOnly : Bool) (clause : Clause) : Parse Item := do
  expectWord "from"
  let erased := typeOnly ||
    !clause.other && !clause.links.isEmpty && clause.links.all (·.typeOnly)
  importSource !erased

/-- Reads an import that starts with a default. -/
def importDefault (typeOnly : Bool) : Parse Item := do
  if ← eat "," then discard <| namedClause typeOnly
  importRest typeOnly ⟨[], true⟩

/-- Reads an import of names only. -/
def importNamed (typeOnly : Bool) : Parse Item := do
  importRest typeOnly (← namedClause typeOnly)

/-- Whether the word `from` at the current token is followed by the name of a module. -/
def fromModule : Parse Bool := do
  if ← atWord "from" then ahead do
    skip
    match ← peek with
    | .text _ => pure true
    | _ => pure false
  else pure false

/-- Reads an import by assignment, or one with a default. A name that stands directly before its module is
passed over. -/
def importAfterName (typeOnly : Bool) : Parse Item := do
  if (← typed) && (← sees "=") then
    importTarget
    pure .other
  else match ← peek with
    | .text _ => importSource !typeOnly
    | _ => importDefault typeOnly

/-- Reads an import behind the word `type`, which may be its default. -/
def importTyped : Parse Item := do
  if ← seesAny ["*", "\x7b"] then importNamed true
  else if isBindable (← peek) && !(← fromModule) then
    discard boundName
    importAfterName true
  else importAfterName false

/-- Reads an import declaration. -/
def importStatement : Parse Item := do
  expectWord "import"
  match ← peek with
  | .text _ => importSource true
  | _ =>
    if isBindable (← peek) then
      let first ← boundName
      if first = "type" && (← typed) then importTyped
      else if first = "defer" && (← sees "*") then importNamed false
      else if first = "source" && isBindable (← peek) && !(← fromModule) then
        discard boundName
        importRest false ⟨[], true⟩
      else importAfterName false
    else importNamed false

/-! ### Exports -/

/-- Reads the rest of an export of everything from another module. -/
def exportAll : Parse Item := do
  expect "*"
  let names ← do
    if ← eatWord "as" then pure [(← linkName).text] else pure []
  expectWord "from"
  discard moduleName
  importAttributes
  endStatement
  pure (.exports names)

/-- Reads an export of names in braces, of this module or of another. -/
def exportNamed (typeOnly : Bool) : Parse Item := do
  let found ← links typeOnly
  if ← eatWord "from" then
    discard moduleName
    importAttributes
  else flawIf !(found.all (·.source.isLocal))
  endStatement
  pure (.exports (found.map (·.target.text)))

/-- Reads what is exported as the default. -/
def exportDefault (decorated : Bool) : Parse Item := do
  expectWord "default"
  let more ← g.decorators
  if ← atWord "class" then discard <| g.classRule .defaultExport
  else if (← typed) && (← atWord "abstract") && (← ahead (do
      skip
      if ← afterBreak then pure false else atWord "class")) then
    bump
    discard <| g.classRule .defaultExport
  else if decorated || more then fail
  else if (← atWord "function") || (← atAsyncFunction) then
    discard <| g.function .defaultExport
  else if (← typed) && (← atWord "interface") && (← ahead (do
      skip
      if ← afterBreak then pure false else pure (isBindable (← peek)))) then g.interface
  else
    discard <| g.assignment true
    endStatement
  pure (.exports ["default"])

/-- Reads an exported declaration. -/
def exportDeclaration : Parse Item := do
  if (← atWord "function") || (← atAsyncFunction) then
    let (_, n) ← g.function .declaration
    pure (.exports n.toList)
  else if ← atWord "class" then
    let n ← g.classRule .declaration
    pure (.exports n.toList)
  else if (← atAnyWord ["var", "let"]) || (← atUsing) ||
      (← atWord "const") && !(← ahead (do skip; atWord "enum")) then
    pure (.exports (← g.variableStatement))
  else if ← atTypedDeclaration then
    g.declaration
    pure .other
  else fail

/-- Reads an export that only a script with types has, if there is one here. -/
def exportTyped : Parse (Option Item) := do
  if !(← typed) then pure none
  else if ← eat "=" then
    discard g.expression
    endStatement
    pure (some .other)
  else if (← atWord "as") && (← ahead (do skip; atWord "namespace")) then
    bump
    bump
    discard boundName
    endStatement
    pure (some .other)
  else if ← atWord "import" then
    bump
    if (← atWord "type") && (← ahead (do skip; pure (isBindable (← peek)))) then bump
    discard boundName
    importTarget
    pure (some .other)
  else if (← atWord "type") && (← ahead (do skip; seesAny ["*", "\x7b"])) then
    bump
    if ← sees "*" then discard exportAll else discard <| exportNamed true
    pure (some .other)
  else pure none

/-- Reads an export declaration. -/
def exportStatement (decorated : Bool) : Parse Item := do
  expectWord "export"
  match ← g.exportTyped with
  | some item => pure item
  | none =>
    if ← sees "*" then exportAll
    else if ← sees "\x7b" then exportNamed false
    else if ← atWord "default" then g.exportDefault decorated
    else
      let more ← g.decorators
      if (decorated || more) && !(← atAnyWord ["class", "abstract"]) then fail
      g.exportDeclaration

end RouteTrees.Script.Grammar
