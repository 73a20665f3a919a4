/-!
# Tokens of a script

What the text of a script is cut into, and the classes of words that the grammar tells apart. A word
is kept as its text, whether or not it is a keyword: most keywords are ordinary names in some places.
-/

namespace RouteTrees.Script

/-- What a token is, apart from where it stands. -/
inductive Lexeme where
  /-- The end of the text. -/
  | finish
  /-- A name or keyword; `escaped` if some character of it was written as an escape. -/
  | word (name : String) (escaped : Bool)
  /-- A private name, without its number sign. -/
  | hashed (name : String)
  /-- A number, of any base and size. -/
  | number
  /-- A string literal, with escapes decoded. -/
  | text (value : String)
  /-- The opening chunk of a template; `wellFormed` if every escape in it has a value, `closes` if
  the template ends with it. -/
  | quasi (wellFormed : Bool) (closes : Bool)
  /-- A punctuator. -/
  | sign (mark : String)
  /-- Text between the tags of an element. -/
  | prose
  /-- Characters that form no token. -/
  | broken
deriving DecidableEq, Inhabited

/-- A token, and whether a line ended between it and the one before. -/
structure Token where
  lexeme : Lexeme
  afterBreak : Bool
deriving DecidableEq, Inhabited

/-- Words that are never identifiers of their own, `await` and `yield` among them. -/
def reservedWords : List String :=
  ["await", "break", "case", "catch", "class", "const", "continue", "debugger", "default", "delete",
   "do", "else", "enum", "export", "extends", "false", "finally", "for", "function", "if", "import",
   "in", "instanceof", "new", "null", "return", "super", "switch", "this", "throw", "true", "try",
   "typeof", "var", "void", "while", "with", "yield"]

/-- Words that an exported name may not be bound by. -/
def futureReservedWords : List String :=
  ["implements", "interface", "let", "package", "private", "protected", "public", "static"]

/-- Words with a meaning in some places of the grammar and none elsewhere. -/
def contextualWords : List String :=
  ["async", "from", "get", "meta", "of", "set", "target", "accessor", "abstract", "as", "asserts",
   "assert", "any", "boolean", "constructor", "declare", "infer", "intrinsic", "is", "keyof",
   "module", "namespace", "never", "out", "readonly", "require", "number", "object", "satisfies",
   "string", "symbol", "type", "undefined", "unique", "using", "unknown", "global", "bigint",
   "override", "source", "defer"]

/-- Words that may stand before a declaration or a member and qualify it. -/
def modifierWords : List String :=
  ["abstract", "accessor", "async", "const", "declare", "default", "export", "in", "public",
   "private", "protected", "out", "override", "readonly", "static"]

/-- Whether a word is one of the language's own, reserved or not. -/
def isKeyword (name : String) : Bool :=
  reservedWords.contains name || futureReservedWords.contains name || contextualWords.contains name

/-- Whether a word can never be a name. -/
def isReserved (name : String) : Bool := reservedWords.contains name

/-- The marks that assign. -/
def assignmentMarks : List String :=
  ["=", "+=", "-=", "*=", "/=", "%=", "**=", "<<=", ">>=", ">>>=", "&=", "|=", "^=", "&&=", "||=",
   "??="]

end RouteTrees.Script
