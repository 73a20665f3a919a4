import RouteTrees.Script.Linkage

/-!
# Statements

Statements, declarations among them. A statement that stands alone, as the body of a loop does, may be
no declaration of a constant or a class.
-/

namespace RouteTrees.Script.Grammar

open Parse

variable (g : Grammar)

/-- Reads a statement that may be no declaration. -/
def alone : Parse Unit := discard (g.statement false)

/-- Reads statements in braces. -/
def block : Parse Unit := do
  expect "\x7b"
  discard <| many (do pure !(← atClose "\x7d")) (g.statement true)
  expect "\x7d"

/-- Reads an expression in parentheses, as the head of a statement. -/
def head : Parse Unit := do
  expect "("
  discard <| enclosed g.expression
  expect ")"

/-- Reads a choice between two statements. -/
def ifStatement : Parse Unit := do
  bump
  g.head
  g.alone
  if ← eatWord "else" then g.alone

/-! ### Loops -/

/-- Reads a loop that tests its condition at the end. No mark has to end it. -/
def doStatement : Parse Unit := do
  bump
  g.alone
  expectWord "while"
  g.head
  discard <| eat ";"

/-- How a loop goes on behind what stands first in its head. -/
def loopRest : Parse Unit := do
  expect ")"
  g.alone

/-- Reads the rest of a counting loop, from its first semicolon on. -/
def countingLoop : Parse Unit := do
  expect ";"
  unless ← sees ";" do discard <| enclosed g.expression
  expect ";"
  unless ← sees ")" do discard <| enclosed g.expression
  g.loopRest

/-- Reads the rest of a loop over keys or values. -/
def iteratingLoop : Parse Unit := do
  if ← eatWord "of" then discard g.value
  else
    expectWord "in"
    discard <| enclosed g.expression
  g.loopRest

/-- Whether a loop over keys or values goes on here. -/
def atIteration : Parse Bool := atAnyWord ["in", "of"]

/-- Reads a loop of which the head starts with a declaration. -/
def declaringLoop (waiting : Bool) : Parse Unit := do
  let found ← within (fun c => { c with membership := false }) g.declarators
  if ← atIteration then
    flawIf (waiting && (← atWord "in"))
    g.iteratingLoop
  else
    flawIf (waiting || found.any (·.incomplete))
    g.countingLoop

/-- Reads a loop of which the head starts with an expression. -/
def assigningLoop (waiting : Bool) : Parse Unit := do
  let begins ← peek
  let unclear := isWord "let" begins || isWord "async" begins && !waiting
  let unclear := unclear && (← ahead (do skip; atWord "of"))
  let first ← within (fun c => { c with membership := false }) g.expression
  if ← atIteration then
    flawIf (unclear || waiting && (← atWord "in"))
    becomeTarget first
    g.iteratingLoop
  else
    flawIf waiting
    g.countingLoop

/-- Whether `let` at the current token declares something within the head of a loop. -/
def atLoopLet : Parse Bool := do
  if ← atWord "let" then ahead do
    skip
    if isBindable (← peek) then pure true else seesAny ["[", "\x7b"]
  else pure false

/-- Reads a loop that counts or goes over something. -/
def forStatement : Parse Unit := do
  bump
  let waiting ← eatWord "await"
  flawIf (waiting && !(← context).awaiting)
  expect "("
  if ← sees ";" then
    flawIf waiting
    g.countingLoop
  else if (← atAnyWord ["var", "const"]) || (← atLoopLet) ||
      (← atUsing) && !(← ahead (do skip; atWord "of")) then g.declaringLoop waiting
  else if (← atWord "await") && (← ahead (do skip; atUsing)) then
    bump
    g.declaringLoop waiting
  else g.assigningLoop waiting

/-! ### Jumps -/

/-- Reads a jump out of a loop, to a label if one is named on its line. -/
def jump : Parse Unit := do
  bump
  unless ← canEnd do discard boundName
  endStatement

/-- Reads the end of a function, with what it returns if that stands on the line. -/
def returnStatement : Parse Unit := do
  flawIf !(← context).returning
  bump
  unless ← canEnd do discard g.expression
  endStatement

/-- Reads a throw. What is thrown stands on its line. -/
def throwStatement : Parse Unit := do
  bump
  flawIf (← afterBreak)
  discard g.expression
  endStatement

/-- Reads a guarded block with what catches its failures and what follows in any case. One of the two
has to be there. -/
def tryStatement : Parse Unit := do
  bump
  g.block
  let caught ← eatWord "catch"
  if caught then
    if ← eat "(" then
      discard g.boundPart
      expect ")"
    g.block
  let finished ← eatWord "finally"
  if finished then g.block
  flawIf !(caught || finished)

/-- Reads a choice between cases, of which each has statements. -/
def switchStatement : Parse Unit := do
  bump
  g.head
  expect "\x7b"
  discard <| many (do pure !(← atClose "\x7d")) do
    if ← eatWord "default" then pure ()
    else
      expectWord "case"
      discard g.expression
    expect ":"
    discard <| many (do
      if ← atAnyWord ["case", "default"] then pure false else pure !(← atClose "\x7d"))
      (g.statement true)
  expect "\x7d"

/-! ### Declarations and expressions as statements -/

/-- Reads an expression as a statement, or a label and its statement. -/
def expressionStatement : Parse Item := do
  let s ← g.expression
  if s = .name && (← sees ":") then
    bump
    g.alone
    pure .other
  else
    endStatement
    match s with
    | .text v => pure (.directive v)
    | _ => pure .other

/-- Reads a declaration of variables; alone, a statement may declare by `var` only. -/
def variablesHere (declarations : Bool) : Parse Unit := do
  flawIf (!declarations && !(← atWord "var"))
  discard g.variableStatement

/-- Reads a statement that begins with `let`: the word is a name where an operator, a selection or the
end of the statement follows. -/
def letStatement (declarations : Bool) : Parse Item := do
  let (operates, selects, ends, brackets) ← fun c =>
    match (do
      skip
      let operates ← match ← operatorHere with
        | some (m, _) => pure ((precedence? m).isSome || assignmentMarks.contains m)
        | none => pure false
      pure (operates, ← seesAny [".", "("], ← sees ";", ← sees "[") :
        Parse (Bool × Bool × Bool × Bool)) c with
    | some (a, _) => some (a, c)
    | none => none
  if operates || selects then
    discard g.expression
    endStatement
    pure .other
  else if !declarations && !brackets || ends then
    discard name
    endStatement
    pure .other
  else
    g.variablesHere declarations
    pure .other

/-- Reads a function as a statement. One that stands alone is neither asynchronous nor a generator. -/
def functionStatement (declarations : Bool) : Parse Unit := do
  let (m, _) ← g.function .declaration
  flawIf (!declarations && (m.asynchronous || m.generator))

/-- Reads a class as a statement, which may not stand alone. -/
def classStatement (declarations : Bool) : Parse Unit := do
  flawIf !declarations
  discard <| g.classRule .declaration

/-- Reads what is decorated: a class or an export of one. -/
def decoratedStatement (declarations : Bool) : Parse Item := do
  discard g.decorators
  if ← atWord "export" then g.exportStatement true
  else if ← atWord "class" then
    g.classStatement declarations
    pure .other
  else if (← atAnyWord ["abstract", "declare"]) && (← atTypedDeclaration) then
    g.declaration
    pure .other
  else fail

/-- A statement of which only matters that it is there. -/
def plain (p : Parse Unit) : Parse Item := do
  p
  pure .other

/-- Reads a statement that starts with a word. -/
def wordStatement (word : String) (declarations : Bool) : Parse Item := do
  match word with
  | "if" => plain g.ifStatement
  | "for" => plain g.forStatement
  | "while" => plain do
    bump
    g.head
    g.alone
  | "with" => plain do
    bump
    g.head
    g.alone
  | "do" => plain g.doStatement
  | "break" => plain jump
  | "continue" => plain jump
  | "return" => plain g.returnStatement
  | "throw" => plain g.throwStatement
  | "try" => plain g.tryStatement
  | "switch" => plain g.switchStatement
  | "debugger" => plain do
    bump
    endStatement
  | "class" => plain (g.classStatement declarations)
  | "function" => plain (g.functionStatement declarations)
  | "export" => g.exportStatement false
  | "import" =>
    if ← ahead (do skip; seesAny [".", "("]) then g.expressionStatement else importStatement
  | "var" => plain (g.variablesHere declarations)
  | "let" => g.letStatement declarations
  | "const" =>
    if (← typed) && (← ahead (do skip; atWord "enum")) then plain g.declaration
    else plain (g.variablesHere declarations)
  | _ =>
    if ← atAsyncFunction then plain (g.functionStatement declarations)
    else if ← atUsing then plain (g.variablesHere declarations)
    else if word = "await" && (← ahead (do skip; atUsing)) then plain do
      bump
      g.variablesHere declarations
    else if ← atTypedDeclaration then plain g.declaration
    else g.expressionStatement

/-- Reads a statement, or a declaration where one may stand. -/
def statementRule (declarations : Bool) : Parse Item := do
  match ← peek with
  | .word n _ => g.wordStatement n declarations
  | _ =>
    if ← sees "\x7b" then plain g.block
    else if ← sees ";" then plain bump
    else if ← sees "@" then g.decoratedStatement declarations
    else g.expressionStatement

end RouteTrees.Script.Grammar
