import RouteTrees.Script.Literal
import RouteTrees.Script.Token

/-!
# Reading one token

`Token.next` reads the token at the front of a text, skipping what separates it from the one before.
A slash is always read as an operator and a right angle always alone; the grammar, which knows what may
stand at a place, asks for a longer reading there (`rightAngle`, `pattern`, `resumeTemplate`). Between
the tags of an element other rules hold (`Token.nextChild`), and so after the equals sign of an
attribute (`Token.nextAttribute`).
-/

namespace RouteTrees.Script

/-- Where the gap between two tokens is being read. -/
inductive Gap where
  | blank
  | line
  | block
deriving DecidableEq

/-- Skips blanks, line breaks and comments. Answers whether a line ended and what follows, or nothing
if a comment does not end. -/
def skipGap (broke : Bool) : Gap → List Char → Option (Bool × List Char)
  | .block, [] => none
  | .blank, [] => some (broke, [])
  | .line, [] => some (broke, [])
  | .blank, c :: cs =>
    if c = '/' ∧ cs.head? = some '/' then skipGap broke .line cs
    else if c = '/' ∧ cs.head? = some '*' then
      match cs with
      | _ :: rest => skipGap broke .block rest
      | [] => none
    else if isLineBreak c then skipGap true .blank cs
    else if isBlank c then skipGap broke .blank cs
    else some (broke, c :: cs)
  | .line, c :: cs => if isLineBreak c then skipGap true .blank cs else skipGap broke .line cs
  | .block, c :: cs =>
    if c = '*' ∧ cs.head? = some '/' then
      match cs with
      | _ :: rest => skipGap broke .blank rest
      | [] => none
    else skipGap (broke || isLineBreak c) .block cs

/-- Reads a name: its characters, whether one of them was escaped, and the text after it. -/
def scanWord (first : Bool) : Option Escape → List Char → Option (List Char × Bool × List Char)
  | none, [] => some ([], false, [])
  | some _, [] => none
  | none, c :: cs =>
    if c = '\\' then (scanWord first (some .start) cs).map fun r => (r.1, true, r.2.2)
    else if if first then isIdStart c else isIdPart c then
      (scanWord false none cs).map fun r => (c :: r.1, r.2)
    else some ([], false, c :: cs)
  | some .start, c :: cs => if c = 'u' then scanWord first (some .unicode) cs else none
  | some e, c :: cs =>
    match e.step false c with
    | .taken [] next => scanWord first next cs
    | .taken [.char d] none =>
      if if first then isIdStart d else isIdPart d then
        (scanWord false none cs).map fun r => (d :: r.1, r.2)
      else none
    | _ => none

/-- The punctuators longer than one character that begin with a character, longest first. -/
def longMarks : Char → List String
  | '=' => ["===", "==", "=>"]
  | '!' => ["!==", "!="]
  | '+' => ["++", "+="]
  | '-' => ["--", "-="]
  | '*' => ["**=", "**", "*="]
  | '/' => ["/="]
  | '%' => ["%="]
  | '&' => ["&&=", "&&", "&="]
  | '|' => ["||=", "||", "|="]
  | '^' => ["^="]
  | '?' => ["??=", "??", "?."]
  | '<' => ["<<=", "<<", "<="]
  | '.' => ["..."]
  | _ => []

/-- The characters that are punctuators. -/
def isMark (c : Char) : Bool :=
  "\x7b\x7d()[];,<>+-*/%&|^!~?:=.@".toList.contains c

/-- What follows a mark, if it stands first. -/
def dropMark? (mark : String) (cs : List Char) : Option (List Char) :=
  if mark.toList.isPrefixOf cs then some (cs.drop mark.length) else none

/-- The longest of some punctuators at the front of a text. -/
def findMark? (marks : List String) (cs : List Char) : Option (String × List Char) :=
  marks.findSome? fun m => (dropMark? m cs).map fun rest => (m, rest)

/-- Reads a punctuator. An optional chain is none before a digit. -/
def scanSign (c : Char) (cs : List Char) : Lexeme × List Char :=
  if isMark c then
    match findMark? (longMarks c) (c :: cs) with
    | some (m, rest) =>
      if m = "?." && (rest.head?.any Char.isDigit) then (.sign "?", cs) else (.sign m, rest)
    | none => (.sign (String.singleton c), cs)
  else (.broken, [])

/-- A lexeme that was read, or one that is broken and ends the text. -/
def orBroken (read : Option (Lexeme × List Char)) : Lexeme × List Char :=
  read.getD (.broken, [])

/-- The lexeme that starts with a character, and what follows it. -/
def scanFrom (c : Char) (cs : List Char) : Lexeme × List Char :=
  if isIdStart c || c = '\\' then
    orBroken <| (scanWord true none (c :: cs)).map fun r =>
      (.word (String.ofList r.1) r.2.1, r.2.2)
  else if c.isDigit then orBroken <| (skipNumber c cs).map fun rest => (.number, rest)
  else if c = '"' || c = '\'' then
    orBroken <| (scanText c none cs).map fun r => (.text (Piece.assemble r.1), r.2)
  else if c = '\x60' then
    orBroken <| (scanQuasi true none cs).map fun r => (.quasi r.1 r.2.1, r.2.2)
  else if c = '#' then
    orBroken <| (scanWord true none cs).bind fun r =>
      if r.1 = [] then none else some (.hashed (String.ofList r.1), r.2.2)
  else if c = '.' && cs.head?.any Char.isDigit then
    orBroken <| ((skipDigits1 Char.isDigit cs).bind skipExponent).bind fun rest =>
      (numberEnd rest).map fun rest => (.number, rest)
  else scanSign c cs

/-- The first lexeme of a text without a gap before it, and what follows. -/
def scan : List Char → Lexeme × List Char
  | [] => (.finish, [])
  | c :: cs => scanFrom c cs

namespace Token

/-- The first token of a text, and what follows. -/
def next (cs : List Char) : Token × List Char :=
  match skipGap false .blank cs with
  | none => (⟨.broken, false⟩, [])
  | some (broke, rest) => (⟨(scan rest).1, broke⟩, (scan rest).2)

/-- Reads text between tags up to the next tag or substitution. A right angle or a closing brace may
not stand in it. -/
def proseEnd : List Char → Option (List Char)
  | [] => none
  | c :: cs =>
    if c = '<' ∨ c = '\x7b' then some (c :: cs)
    else if c = '>' ∨ c = '\x7d' then none
    else proseEnd cs

/-- Reads the next token between the tags of an element. -/
def nextChild (cs : List Char) : Token × List Char :=
  match cs with
  | [] => (⟨.finish, false⟩, [])
  | c :: rest =>
    if c = '<' then (⟨.sign "<", false⟩, rest)
    else if c = '\x7b' then (⟨.sign "\x7b", false⟩, rest)
    else match proseEnd cs with
      | none => (⟨.broken, false⟩, [])
      | some after => (⟨.prose, false⟩, after)

/-- The text after the closing quote of an attribute, in which a backslash means itself. -/
def quoteEnd (quote : Char) : List Char → Option (List Char)
  | [] => none
  | c :: cs => if c = quote then some cs else quoteEnd quote cs

/-- Reads the token after the equals sign of an attribute. -/
def nextAttribute (cs : List Char) : Token × List Char :=
  match skipGap false .blank cs with
  | none => (⟨.broken, false⟩, [])
  | some (broke, rest) =>
    match rest with
    | c :: after =>
      if c = '"' ∨ c = '\'' then
        match quoteEnd c after with
        | none => (⟨.broken, broke⟩, [])
        | some tail => (⟨.text "", broke⟩, tail)
      else (⟨(scan rest).1, broke⟩, (scan rest).2)
    | [] => (⟨.finish, broke⟩, [])

end Token

/-- The operators that begin with a right angle, longest first. -/
def rightAngles : List String := [">>>=", ">>>", ">>=", ">>", ">="]

/-- The longest operator that begins with the right angle just read. -/
def rightAngle (cs : List Char) : String × List Char :=
  (findMark? rightAngles ('>' :: cs)).getD (">", cs)

/-- The text that follows the first character of a mark, given the text after the mark. -/
def splitMark (mark : String) (cs : List Char) : List Char :=
  mark.toList.tail ++ cs

/-- The text after a regular expression, given the text after its slash. -/
def pattern (cs : List Char) : Option (List Char) :=
  (skipPattern false false cs).bind (skipFlags [])

/-- Reads a template on from a closing brace: whether its escapes have values, whether it closes the
template, and the text after it. -/
def resumeTemplate (cs : List Char) : Option (Bool × Bool × List Char) :=
  scanQuasi true none cs

/-- The rest of an element's name: in it a hyphen is a letter. -/
def hyphenated (cs : List Char) : List Char × List Char :=
  (cs.takeWhile fun c => isIdPart c || c = '-', cs.dropWhile fun c => isIdPart c || c = '-')

end RouteTrees.Script
