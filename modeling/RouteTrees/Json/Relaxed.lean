import RouteTrees.Json.Reader
import RouteTrees.Script.Letter

/-!
# Relaxed JSON

JSON as it is written by hand in configuration files, after the rules of JSON5: comments, a comma behind
the last item, single quotes, names without quotes, lines that go on, and numbers with a plus, a bare
point or in base sixteen. Values are the same as those of plain JSON; a number that is not finite is
read as null. Nesting may be deeper than in plain JSON.
-/

namespace RouteTrees.Json.Relaxed

open Read (malformed unfinished drop here exactly)

variable {σ : Type}

/-- How deep lists and objects may be nested here. -/
def depthLimit : Nat := 3000

/-! ### Between the parts of a value -/

/-- What is being skipped. -/
inductive Gap where
  | blanks
  | line
  | block

/-- A character that may stand between the parts of a value. -/
def isBlank (c : Char) : Bool := Script.isBlank c || Script.isLineBreak c

/-- Passes over blanks and comments. -/
def skipGap : Gap → List Char → Except Error (List Char)
  | .blanks, '/' :: '/' :: cs => skipGap .line cs
  | .blanks, '/' :: '*' :: cs => skipGap .block cs
  | .blanks, c :: cs => if isBlank c then skipGap .blanks cs else .ok (c :: cs)
  | .line, c :: cs => if Script.isLineBreak c then skipGap .blanks cs else skipGap .line cs
  | .block, '*' :: '/' :: cs => skipGap .blanks cs
  | .block, _ :: cs => skipGap .block cs
  | .block, [] => .error .unfinished
  | _, [] => .ok []

/-- The next character behind blanks and comments, which stays. -/
def peek : Read (Option Char) := fun cs => do
  let rest ← skipGap .blanks cs
  pure (rest.head?, rest)

/-! ### Texts -/

/-- Where in a text between quotes a reader is. -/
inductive Place where
  | plain
  | escape
  /-- In an escape, with so many digits to come; `lead` is the first half of a pair. -/
  | digits (left value : Nat) (lead : Option Nat)
  /-- Behind the first half of a pair, where the escape of the second has to begin. -/
  | between (lead : Nat)
  | betweenEscape (lead : Nat)
  /-- Behind an escaped carriage return, to which a line feed belongs. -/
  | afterReturn
  /-- Behind an escaped zero, which no digit may follow. -/
  | afterZero

/-- What becomes of a character that is no part of an escape: nothing if it ends the text. -/
def plainStep (quote c : Char) : Except Error (Option (Option Char × Place)) :=
  if c = quote then .ok none
  else if c = '\\' then .ok (some (none, .escape))
  else if c = '\n' || c = '\r' then .error .malformed
  else .ok (some (some c, .plain))

/-- What becomes of a character behind a backslash. -/
def escapeStep (c : Char) : Except Error (Option Char × Place) :=
  if c = 'u' then .ok (none, .digits 4 0 none)
  else if c = 'x' then .ok (none, .digits 2 0 none)
  else if c = '0' then .ok (some '\x00', .afterZero)
  else if c.isDigit then .error .malformed
  else if c = '\r' then .ok (none, .afterReturn)
  else if Script.isLineBreak c then .ok (none, .plain)
  else if c = 'v' then .ok (some '\x0b', .plain)
  else .ok (some ((Read.letter? c).getD c), .plain)

/-- Where a reader of plain JSON would be. -/
def Place.ofStrict : Read.Place → Place
  | .plain => .plain
  | .escape => .escape
  | .digits left value lead => .digits left value lead
  | .between lead => .between lead
  | .betweenEscape lead => .betweenEscape lead

/-- What is to be done with the next character of a text between quotes: it ends, or goes on elsewhere,
perhaps with a character of its value. -/
def textStep (quote : Char) (place : Place) (c : Char) : Except Error (Option (Option Char × Place)) :=
  match place with
  | .plain => plainStep quote c
  | .escape => (escapeStep c).map some
  | .digits left value lead =>
    match Read.digit? c with
    | none => .error .malformed
    | some d =>
      if left ≤ 1 then
        (Read.escaped true (value * 16 + d) lead).map fun r => some (r.1, .ofStrict r.2)
      else .ok (some (none, .digits (left - 1) (value * 16 + d) lead))
  | .between lead => if c = '\\' then .ok (some (none, .betweenEscape lead)) else .error .malformed
  | .betweenEscape lead =>
    if c = 'u' then .ok (some (none, .digits 4 0 (some lead))) else .error .malformed
  | .afterReturn => if c = '\n' then .ok (some (none, .plain)) else plainStep quote c
  | .afterZero => if c.isDigit then .error .malformed else plainStep quote c

/-- The characters up to the quote that closes the text, and what is left behind it. -/
def textFrom (quote : Char) : Place → List Char → Except Error (List Char × List Char)
  | _, [] => .error .unfinished
  | place, c :: cs => do
    match ← textStep quote place c with
    | none => pure ([], cs)
    | some (value, next) =>
      let (more, rest) ← textFrom quote next cs
      pure (value.toList ++ more, rest)

/-- Reads a text up to its closing quote, once the first quote is taken. -/
def textBody (quote : Char) : Read String := fun cs =>
  (textFrom quote .plain cs).map fun r => (String.ofList r.1, r.2)

/-! ### Names -/

/-- A character that a name may hold, at its beginning or behind it. -/
def fitsName (first : Bool) (c : Char) : Bool :=
  if first then Script.isIdStart c else Script.isIdPart c

/-- The character that four digits of base sixteen stand for. -/
def charOf? (digits : List Char) : Option Char :=
  (digits.mapM Read.digit?).map fun ds => Char.ofNat (ds.foldl (fun n d => n * 16 + d) 0)

/-- The characters of a name without quotes, of which the first may be of fewer kinds. -/
def nameFrom (first : Bool) : List Char → Except Error (List Char × List Char)
  | '\\' :: 'u' :: a :: b :: c :: d :: rest =>
    match charOf? [a, b, c, d] with
    | none => .error .malformed
    | some x =>
      if fitsName first x then (nameFrom false rest).map fun r => (x :: r.1, r.2)
      else .error .malformed
  | c :: rest =>
    if fitsName first c then (nameFrom false rest).map fun r => (c :: r.1, r.2)
    else if first || c = '\\' then .error .malformed
    else .ok ([], c :: rest)
  | [] => if first then .error .unfinished else .ok ([], [])

/-- Reads the name of a field: a text, or a name without quotes. -/
def fieldName : Read String := do
  match ← peek with
  | some '"' =>
    drop
    textBody '"'
  | some '\'' =>
    drop
    textBody '\''
  | _ => fun cs => (nameFrom true cs).map fun r => (String.ofList r.1, r.2)

/-! ### Numbers -/

/-- Reads a number of base ten, of which the sign has been read. Digits may be missing on one side of the
point. -/
def decimal (negative : Bool) : Read Json := do
  let whole ← Read.takeDigits
  let leadingZero := match whole with
    | '0' :: _ :: _ => true
    | _ => false
  let fraction ← do
    if (← here) == some '.' then
      drop
      pure (some (← Read.takeDigits))
    else pure none
  let marked := (← here) == some 'e' || (← here) == some 'E'
  let exponent ← do
    if marked then
      drop
      let minus := (← here) == some '-'
      if minus || (← here) == some '+' then drop
      pure (some (minus, ← Read.someDigits true))
    else pure none
  if leadingZero || whole ++ fraction.getD [] = [] then malformed
  else pure (((Read.Numeral.mk negative whole fraction exponent).value?).getD .null)

/-- The digits of base sixteen at the front of a text. -/
def takeHexDigits : Read (List Nat) := fun cs =>
  let isHex (c : Char) : Bool := (Read.digit? c).isSome
  .ok ((cs.takeWhile isHex).filterMap Read.digit?, cs.dropWhile isHex)

/-- Reads a number of base sixteen from behind its mark. -/
def hexadecimal (negative : Bool) : Read Json := do
  let ds ← takeHexDigits
  let n : Nat := ds.foldl (fun n d => n * 16 + d) 0
  if ds.isEmpty then malformed else pure (.integer (if negative then -(n : Int) else (n : Int)))

/-- Reads a number. What is not finite has no value in JSON but null. -/
def number : Read Json := do
  let negative := (← here) == some '-'
  if negative || (← here) == some '+' then drop
  fun
    | '0' :: 'x' :: cs => hexadecimal negative cs
    | '0' :: 'X' :: cs => hexadecimal negative cs
    | 'I' :: cs => (exactly "nfinity".toList cs).map fun r => (.null, r.2)
    | 'N' :: cs => (exactly "aN".toList cs).map fun r => (.null, r.2)
    | cs => decimal negative cs

/-! ### Values -/

/-- Reads items, or fields, up to a closing character, each of them with a running result. A comma may
follow the last. -/
def itemsFrom (close : Char) (item : σ → Read σ) : Nat → σ → Read σ
  | 0, _ => malformed
  | n + 1, s => do
    let c ← peek
    if c == some close then
      drop
      pure s
    else
      let t ← item s
      match ← peek with
      | some ',' =>
        drop
        itemsFrom close item n t
      | some d =>
        if d = close then
          drop
          pure t
        else malformed
      | none => unfinished

/-- Reads the items up to a closing bracket, none or one comma behind the last of them. -/
def items (close : Char) (item : σ → Read σ) (s : σ) : Read σ := fun cs =>
  itemsFrom close item (cs.length + 1) s cs

/-- Takes the colon between the name of a field and its value, and the gaps around it. -/
def colon : Read Unit := do
  match ← peek with
  | some ':' => drop
  | _ => malformed

/-- Reads a value, given what reads the values within it, if any may be. -/
def valueWith (inner : Option (Read Json)) : Read Json := do
  match ← peek with
  | none => unfinished
  | some 'n' =>
    exactly "null".toList
    pure .null
  | some 't' =>
    exactly "true".toList
    pure (.boolean true)
  | some 'f' =>
    exactly "false".toList
    pure (.boolean false)
  | some '"' =>
    drop
    pure (.text (← textBody '"'))
  | some '\'' =>
    drop
    pure (.text (← textBody '\''))
  | some '[' =>
    match inner with
    | none => malformed
    | some item =>
      drop
      pure (.list (← items ']' (fun found => do pure (found ++ [← item])) []))
  | some '{' =>
    match inner with
    | none => malformed
    | some item =>
      drop
      let found ← items '}' (fun found => do
        let k ← fieldName
        colon
        pure (found ++ [(k, ← item)])) []
      pure (.object found)
  | some _ => number

/-- Reads a value in which lists and objects are nested no deeper than given. -/
def value : Nat → Read Json
  | 0 => valueWith none
  | n + 1 => valueWith (some (value n))

/-- The value that a whole text is, with all that is allowed here. -/
def ofText (text : String) : Except Error Json := do
  let (v, rest) ← value depthLimit text.toList
  let (c, _) ← peek rest
  if c.isNone then pure v else throw .malformed

end RouteTrees.Json.Relaxed
