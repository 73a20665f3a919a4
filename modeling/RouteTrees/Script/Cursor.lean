import RouteTrees.Script.Lexer

/-!
# Reading with a cursor

A reader of the grammar (`Parse`) takes a cursor, the current token and the text after it, and answers
a value and the cursor behind what it read, or nothing where the text cannot be read on. Some rules of
the grammar can be broken without stopping the reader: such a break is noted in the cursor (`flaw`) and
refuses the text in the end. A reader that is only tried (`attempt`) or only looks ahead (`ahead`)
leaves no trace when it fails.

Lists are read by bounded repetition; the bound is the length of the whole text, and every turn of such
a list takes a token.
-/

namespace RouteTrees.Script

/-- Which language a script is written in. -/
structure Dialect where
  /-- Type annotations and declarations are read. -/
  types : Bool
  /-- A left angle may open an element. -/
  markup : Bool
deriving DecidableEq, Repr

/-- What the surroundings of a place allow. -/
structure Context where
  dialect : Dialect
  /-- `in` is an operator. -/
  membership : Bool := true
  /-- `await` is an operator. -/
  awaiting : Bool := false
  /-- `yield` is an operator. -/
  yielding : Bool := false
  /-- `return` may stand here. -/
  returning : Bool := false
  /-- The expression of a decorator is being read. -/
  decorating : Bool := false
  /-- Declarations describe what is defined elsewhere. -/
  ambient : Bool := false
  /-- A type followed by `extends` is no condition. -/
  unconditional : Bool := false

/-- A place in a text. -/
structure Cursor where
  token : Token
  rest : List Char
  context : Context
  /-- A rule that does not stop the reader has been broken. -/
  flawed : Bool := false
  /-- Places of shorthand fields with an initial value, which only a destructuring may have. -/
  covers : List Nat := []
  /-- The bound of every repetition. -/
  bound : Nat

/-- Whether the current token is a keyword of which some character was escaped. -/
def Cursor.escapedKeyword (c : Cursor) : Bool :=
  match c.token.lexeme with
  | .word name true => isKeyword name
  | _ => false

/-- A reader of some part of the grammar. -/
abbrev Parse := StateT Cursor Option

namespace Parse

variable {α β : Type}

/-- Refuses what stands here. -/
def fail : Parse α := fun _ => none

/-- The current token. -/
def token : Parse Token := fun c => some (c.token, c)

/-- The current lexeme. -/
def peek : Parse Lexeme := fun c => some (c.token.lexeme, c)

/-- What the surroundings allow. -/
def context : Parse Context := fun c => some (c.context, c)

/-- Whether types are read. -/
def typed : Parse Bool := fun c => some (c.context.dialect.types, c)

/-- Whether elements are read. -/
def marked : Parse Bool := fun c => some (c.context.dialect.markup, c)

/-- Notes that a rule is broken. -/
def flaw : Parse Unit := fun c => some ((), { c with flawed := true })

/-- Notes that a rule is broken, under a condition. -/
def flawIf (b : Bool) : Parse Unit := if b then flaw else pure ()

/-- Goes to the token at the front of the remaining text. -/
def skip : Parse Unit := fun c =>
  some ((), { c with token := (Token.next c.rest).1, rest := (Token.next c.rest).2 })

/-- Takes the current token. A keyword may not be escaped. -/
def bump : Parse Unit := fun c => skip { c with flawed := c.flawed || c.escapedKeyword }

/-- Whether the current token is a given mark. -/
def sees (mark : String) : Parse Bool := fun c => some (c.token.lexeme = .sign mark, c)

/-- Whether a lexeme is a given word. -/
def isWord (name : String) : Lexeme → Bool
  | .word n _ => n = name
  | _ => false

/-- Whether the current token is a given word. -/
def atWord (name : String) : Parse Bool := fun c => some (isWord name c.token.lexeme, c)

/-- Takes a punctuator if it is there. -/
def eat (mark : String) : Parse Bool := do
  if ← sees mark then bump; pure true else pure false

/-- Takes a word if it is there. -/
def eatWord (name : String) : Parse Bool := do
  if ← atWord name then bump; pure true else pure false

/-- Takes a mark that has to be there. -/
def expect (mark : String) : Parse Unit := do
  if ← sees mark then bump else fail

/-- Takes a word that has to be there. -/
def expectWord (name : String) : Parse Unit := do
  if ← atWord name then bump else fail

/-- Whether a line break stands before the current token. -/
def afterBreak : Parse Bool := fun c => some (c.token.afterBreak, c)

/-- Runs a reader and stays where it began; a reader that fails answers no. -/
def ahead (p : Parse Bool) : Parse Bool := fun c =>
  match p c with
  | some (b, _) => some (b, c)
  | none => some (false, c)

/-- Runs a reader, or stays where it began if it fails. -/
def attempt (p : Parse α) : Parse (Option α) := fun c =>
  match p c with
  | some (a, c') => some (some a, c')
  | none => some (none, c)

/-- Runs a reader in other surroundings. -/
def within (change : Context → Context) (p : Parse α) : Parse α := fun c =>
  match p { c with context := change c.context } with
  | some (a, c') => some (a, { c' with context := c.context })
  | none => none

/-- The current token, as it would be read at another place. -/
def replace (lexeme : Lexeme) (rest : List Char) : Parse Unit := fun c =>
  some ((), { c with token := { c.token with lexeme := lexeme }, rest := rest })

/-- A statement ends at a semicolon, before a closing brace, at the end of the text or of a line. -/
def canEnd : Parse Bool := fun c =>
  some (c.token.afterBreak || c.token.lexeme = .sign ";" || c.token.lexeme = .sign "\x7d" ||
    c.token.lexeme = .finish, c)

/-- Ends a statement, by a semicolon or where none is needed. -/
def endStatement : Parse Unit := do
  if ← eat ";" then pure ()
  else if ← canEnd then pure ()
  else fail

/-- Whether a repetition goes on, and with what. -/
inductive Turn (σ β : Type) where
  | again (state : σ)
  | stop (result : β)

/-- Repeats a turn, at most so many times. -/
def turns {σ : Type} (turn : σ → Parse (Turn σ β)) : Nat → σ → Parse β
  | 0, _ => fail
  | n + 1, s => do
    match ← turn s with
    | .again s' => turns turn n s'
    | .stop b => pure b

/-- Repeats a turn until it stops. -/
def repeating {σ : Type} (turn : σ → Parse (Turn σ β)) (start : σ) : Parse β := fun c =>
  turns turn c.bound start c

/-- Reads items as long as there are more, at most so many. -/
def whileItems (more : Parse Bool) (item : Parse α) : Nat → Parse (List α)
  | 0 => fail
  | n + 1 => do
    if ← more then
      let a ← item
      let as ← whileItems more item n
      pure (a :: as)
    else pure []

/-- Reads items as long as there are more. -/
def many (more : Parse Bool) (item : Parse α) : Parse (List α) := fun c =>
  whileItems more item c.bound c

/-- Whether the current token closes a list, or nothing can follow. -/
def atClose (close : String) : Parse Bool := fun c =>
  some (c.token.lexeme = .sign close || c.token.lexeme = .finish || c.token.lexeme = .broken, c)

/-- Reads the items of a list after its first, each behind a comma. -/
def restOfList (close : String) (item : Parse α) : Nat → Parse (List α × Bool)
  | 0 => fail
  | n + 1 => do
    if ← atClose close then pure ([], false)
    else if ← eat "," then
      if ← sees close then pure ([], true)
      else
        let a ← item
        let (as, trailing) ← restOfList close item n
        pure (a :: as, trailing)
    else fail

/-- Reads a list of items up to its closing mark, which is left. Answers also whether a comma stands
before the closing mark. -/
def list (close : String) (item : Parse α) : Parse (List α × Bool) := do
  if ← atClose close then pure ([], false)
  else
    let a ← item
    let (as, trailing) ← fun c => restOfList close item c.bound c
    pure (a :: as, trailing)

/-- Whether the current token is one of some marks. -/
def seesAny (marks : List String) : Parse Bool := fun c =>
  some (match c.token.lexeme with
    | .sign m => marks.contains m
    | _ => false, c)

/-- Whether the current token is one of some words. -/
def atAnyWord (names : List String) : Parse Bool := fun c =>
  some (match c.token.lexeme with
    | .word n _ => names.contains n
    | _ => false, c)

/-! ### Names -/

/-- Whether a lexeme is a word, reserved or not. -/
def isName : Lexeme → Bool
  | .word .. => true
  | _ => false

/-- A word that may be bound if the surroundings agree: `await` and `yield` too. -/
def isBindable : Lexeme → Bool
  | .word n _ => !isReserved n || n = "await" || n = "yield"
  | _ => false

/-- Takes a word, reserved or not. -/
def name : Parse String := do
  match ← peek with
  | .word n _ => skip; pure n
  | _ => fail

/-- Notes that a word is an operator in these surroundings. -/
def checkOperator (n : String) : Parse Unit := do
  let c ← context
  flawIf (c.awaiting && n = "await" || c.yielding && n = "yield")

/-- Whether the current token is a word that refers to something in these surroundings. -/
def atReference : Parse Bool := fun c =>
  some (match c.token.lexeme with
    | .word n _ => !isReserved n || n = "await" && !c.context.awaiting ||
        n = "yield" && !c.context.yielding
    | _ => false, c)

/-- Takes a word that may be bound here. -/
def boundName : Parse String := do
  if isBindable (← peek) then
    let n ← name
    checkOperator n
    pure n
  else fail

end Parse

end RouteTrees.Script
