import RouteTrees.Script.Letter

/-!
# Literals of a script

How the value of a string literal is read, where a template chunk, a regular expression and a number
end. Every reader walks the text once, character by character. An escape is a small machine of its own
(`Escape`), shared by strings and templates: a string with an unreadable escape is no literal, a
template chunk with one is still a chunk.
-/

namespace RouteTrees.Script

/-- The value of a hexadecimal digit. -/
def hexDigit? (c : Char) : Option Nat :=
  if '0' ≤ c ∧ c ≤ '9' then some (c.toNat - '0'.toNat)
  else if 'a' ≤ c ∧ c ≤ 'f' then some (c.toNat - 'a'.toNat + 10)
  else if 'A' ≤ c ∧ c ≤ 'F' then some (c.toNat - 'A'.toNat + 10)
  else none

/-- A part of a string's value: a character, or one half of a surrogate pair. -/
inductive Piece where
  | char (c : Char)
  | half (unit : Nat)
deriving DecidableEq

namespace Piece

/-- The character of a code, or the half of a pair that it is. -/
def ofCode (n : Nat) : Piece :=
  if 0xD800 ≤ n ∧ n ≤ 0xDFFF then .half n else .char (Char.ofNat n)

/-- Joins each leading half with the trailing half that follows it. -/
def joinHalves : List Piece → List Piece
  | .half a :: .half b :: rest =>
    if a < 0xDC00 ∧ 0xDC00 ≤ b then
      .char (Char.ofNat (0x10000 + (a - 0xD800) * 0x400 + (b - 0xDC00))) :: joinHalves rest
    else .half a :: joinHalves (.half b :: rest)
  | p :: rest => p :: joinHalves rest
  | [] => []

/-- The last four hexadecimal digits of a number. -/
def hex4 (n : Nat) : List Char :=
  [n / 0x1000 % 16, n / 0x100 % 16, n / 0x10 % 16, n % 16].map fun d => Nat.digitChar d

/-- The text that pieces stand for. A half that stays alone is written as the replacement character
and its four digits; in such a text the replacement character is written so itself. -/
def assemble (pieces : List Piece) : String :=
  let joined := joinHalves pieces
  let alone := joined.any fun | .half _ => true | .char _ => false
  String.ofList <| joined.flatMap fun
    | .half n => '\ufffd' :: hex4 n
    | .char c => if alone && c = '\ufffd' then '\ufffd' :: hex4 0xFFFD else [c]

end Piece

/-- How much of an escape has been read after its backslash. -/
inductive Escape where
  | start
  /-- After a carriage return, which a line feed may follow. -/
  | carriage
  /-- In a number of base eight, with `left` digits still possible. -/
  | octal (left value : Nat)
  /-- After a zero that no digit may follow. -/
  | zero
  /-- In a number of base sixteen, with `left` digits still owed. -/
  | hex (left value : Nat)
  | unicode
  | brace (empty : Bool) (value : Nat)
deriving DecidableEq

/-- What one more character does to a string that is being read. -/
inductive Advance where
  /-- The character stands for itself, after the pieces. -/
  | itself (pieces : List Piece)
  /-- The character was taken. -/
  | taken (pieces : List Piece) (pending : Option Escape)
  /-- The escape has no value. -/
  | bad

/-- The characters that have an escape of one letter. -/
def namedEscape? : Char → Option Char
  | 'n' => some '\n'
  | 't' => some '\t'
  | 'r' => some '\r'
  | 'b' => some '\x08'
  | 'v' => some '\x0b'
  | 'f' => some '\x0c'
  | _ => none

/-- Reads one character within an escape; `octal` if escapes of base eight have a value. -/
def Escape.step (octal : Bool) (c : Char) : Escape → Advance
  | .start =>
    match namedEscape? c with
    | some d => .taken [.char d] none
    | none =>
      if c = 'x' then .taken [] (some (.hex 2 0))
      else if c = 'u' then .taken [] (some .unicode)
      else if c = '\r' then .taken [] (some .carriage)
      else if isLineBreak c then .taken [] none
      else if '0' ≤ c ∧ c ≤ '9' then
        if octal then
          if c ≤ '3' then .taken [] (some (.octal 2 (c.toNat - '0'.toNat)))
          else if c ≤ '7' then .taken [] (some (.octal 1 (c.toNat - '0'.toNat)))
          else .taken [.char c] none
        else if c = '0' then .taken [] (some .zero)
        else .bad
      else .taken [.char c] none
  | .carriage => if c = '\n' then .taken [] none else .itself []
  | .octal left value =>
    if left = 0 then .itself [.ofCode value]
    else if '0' ≤ c ∧ c ≤ '7' then
      .taken [] (some (.octal (left - 1) (value * 8 + (c.toNat - '0'.toNat))))
    else .itself [.ofCode value]
  | .zero => if '0' ≤ c ∧ c ≤ '9' then .bad else .itself [.char '\x00']
  | .hex left value =>
    match hexDigit? c with
    | none => .bad
    | some d =>
      if left ≤ 1 then .taken [.ofCode (value * 16 + d)] none
      else .taken [] (some (.hex (left - 1) (value * 16 + d)))
  | .unicode =>
    if c = '{' then .taken [] (some (.brace true 0))
    else match hexDigit? c with
      | none => .bad
      | some d => .taken [] (some (.hex 3 d))
  | .brace empty value =>
    if c = '}' then if empty then .bad else .taken [.ofCode value] none
    else match hexDigit? c with
      | none => .bad
      | some d =>
        if value * 16 + d > 0x10FFFF then .bad
        else .taken [] (some (.brace false (value * 16 + d)))

/-- What a character does, outside or within an escape. -/
def advance (octal : Bool) (pending : Option Escape) (c : Char) : Advance :=
  match pending with
  | none => .itself []
  | some e => e.step octal c

/-- Reads a string literal after its opening quote: its pieces, and the text after the closing quote.
A line break outside an escape ends the attempt. -/
def scanText (quote : Char) : Option Escape → List Char → Option (List Piece × List Char)
  | _, [] => none
  | pending, c :: cs =>
    match advance true pending c with
    | .bad => none
    | .taken pieces next =>
      (scanText quote next cs).map fun r => (pieces ++ r.1, r.2)
    | .itself pieces =>
      if c = quote then some (pieces, cs)
      else if c = '\\' then (scanText quote (some .start) cs).map fun r => (pieces ++ r.1, r.2)
      else if c = '\n' ∨ c = '\r' then none
      else (scanText quote none cs).map fun r => (pieces ++ .char c :: r.1, r.2)

/-- Reads a template chunk: whether all its escapes have a value, whether it closes the template, and
the text after the back quote or the opening of a substitution. -/
def scanQuasi (wellFormed : Bool) : Option Escape → List Char → Option (Bool × Bool × List Char)
  | _, [] => none
  | pending, c :: cs =>
    let plain (ok : Bool) :=
      if c = '\x60' then some (ok, true, cs)
      else if c = '\\' then scanQuasi ok (some .start) cs
      else if c = '$' ∧ cs.head? = some '\x7b' then some (ok, false, cs.tail)
      else scanQuasi ok none cs
    match advance false pending c with
    | .bad => plain false
    | .taken _ next => scanQuasi wellFormed next cs
    | .itself _ => plain wellFormed

/-- Drops the body of a regular expression and its closing slash. A slash within brackets is part of
the body. -/
def skipPattern (inClass escaped : Bool) : List Char → Option (List Char)
  | [] => none
  | c :: cs =>
    if isLineBreak c then none
    else if escaped then skipPattern inClass false cs
    else if c = '\\' then skipPattern inClass true cs
    else if c = '[' then skipPattern true false cs
    else if c = ']' then skipPattern false false cs
    else if c = '/' ∧ inClass = false then some cs
    else skipPattern inClass false cs

/-- Drops the flags of a regular expression: each of the eight at most once. -/
def skipFlags (seen : List Char) : List Char → Option (List Char)
  | [] => some []
  | c :: cs =>
    if c.isAlphanum || c = '$' || c = '_' then
      if "dgimsuvy".toList.contains c && !seen.contains c then skipFlags (c :: seen) cs else none
    else some (c :: cs)

/-- Drops digits of a base, with single separators between them. -/
def skipDigits (isDigit : Char → Bool) : List Char → Option (List Char)
  | [] => some []
  | ['_'] => none
  | '_' :: d :: cs => if isDigit d then skipDigits isDigit cs else none
  | c :: cs => if isDigit c then skipDigits isDigit cs else some (c :: cs)

/-- What follows a run of digits with at least one in it. -/
def skipDigits1 (isDigit : Char → Bool) : List Char → Option (List Char)
  | [] => none
  | c :: cs => if isDigit c then skipDigits isDigit cs else none

/-- A number ends where neither a digit nor an identifier follows. -/
def numberEnd (cs : List Char) : Option (List Char) :=
  match cs with
  | c :: _ => if c.isDigit || isIdStart c then none else some cs
  | [] => some []

/-- Drops the exponent of a number, if there is one. -/
def skipExponent (cs : List Char) : Option (List Char) :=
  match cs with
  | c :: rest =>
    if c = 'e' ∨ c = 'E' then
      match rest with
      | s :: digits =>
        if s = '+' ∨ s = '-' then skipDigits1 Char.isDigit digits
        else skipDigits1 Char.isDigit rest
      | [] => none
    else some cs
  | [] => some []

/-- Drops the digits after a decimal point, if there are any, and the exponent. -/
def skipFraction (cs : List Char) : Option (List Char) :=
  match cs with
  | c :: rest =>
    if c.isDigit then (skipDigits Char.isDigit rest).bind skipExponent else skipExponent cs
  | [] => some []

/-- Drops a number of base two, eight or sixteen after its letter. -/
def skipRadix (isDigit : Char → Bool) (cs : List Char) : Option (List Char) :=
  (skipDigits1 isDigit cs).bind fun rest =>
    numberEnd (if rest.head? = some 'n' then rest.tail else rest)

/-- Drops the rest of a number that begins with a zero and another digit: base eight, unless a digit
eight or nine shows that it is decimal. -/
def skipLegacy (decimal : Bool) : List Char → Option (List Char)
  | [] => some []
  | c :: cs =>
    if '0' ≤ c ∧ c ≤ '7' then skipLegacy decimal cs
    else if c = '8' ∨ c = '9' then skipLegacy true cs
    else if c = '.' ∧ decimal then (skipFraction cs).bind numberEnd
    else if c = 'e' ∧ decimal then (skipExponent (c :: cs)).bind numberEnd
    else numberEnd (c :: cs)

/-- Drops the rest of a number after its first digit. -/
def skipNumber (first : Char) (cs : List Char) : Option (List Char) :=
  match cs with
  | [] => some []
  | c :: rest =>
    if first = '0' then
      if c = 'x' ∨ c = 'X' then skipRadix (fun d => (hexDigit? d).isSome) rest
      else if c = 'o' ∨ c = 'O' then skipRadix (fun d => '0' ≤ d && d ≤ '7') rest
      else if c = 'b' ∨ c = 'B' then skipRadix (fun d => d = '0' || d = '1') rest
      else if c = 'n' then numberEnd rest
      else if c = '.' then (skipFraction rest).bind numberEnd
      else if c.isDigit then skipLegacy false cs
      else (skipExponent cs).bind numberEnd
    else
      (skipDigits Char.isDigit cs).bind fun after =>
        match after with
        | '.' :: more => (skipFraction more).bind numberEnd
        | 'n' :: more => numberEnd more
        | more => (skipExponent more).bind numberEnd

end RouteTrees.Script
