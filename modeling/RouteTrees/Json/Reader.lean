import RouteTrees.Json.Basic

/-!
# Reading JSON

A reader takes the text that is left and answers a value and what is left behind it. Objects and lists may
be nested to a depth of 127; the depth that is still allowed is an argument, on which the readers recur.
What a reader has no use for is skipped without that limit, and without asking whether its numbers and
escapes have a value.
-/

namespace RouteTrees.Json

/-- A reader of a part of a text. -/
abbrev Read := StateT (List Char) (Except Error)

namespace Read

variable {α σ : Type}

/-- Fails as at a text that is no JSON. -/
def malformed : Read α := throw .malformed

/-- Fails as where the text has ended too early. -/
def unfinished : Read α := throw .unfinished

/-- Fails as at a value that is JSON but not what is wanted. -/
def misfit (why : Misfit) : Read α := throw (.misfit why)

/-- A character that may stand between the parts of a value. -/
def isBlank (c : Char) : Bool := c = ' ' || c = '\n' || c = '\t' || c = '\r'

/-- The next character behind blanks, which stays. -/
def peek : Read (Option Char) := fun cs =>
  .ok ((cs.dropWhile isBlank).head?, cs.dropWhile isBlank)

/-- Drops a character that has been looked at. -/
def drop : Read Unit := fun cs => .ok ((), cs.tail)

/-- Reads given characters. -/
def exactly : List Char → Read Unit
  | [] => pure ()
  | c :: cs => fun
    | [] => .error .unfinished
    | d :: ds => if c = d then exactly cs ds else .error .malformed

/-- How deep lists and objects may be nested. -/
def depthLimit : Nat := 127

/-! ### Texts -/

/-- Where in a text between quotes a reader is. -/
inductive Place where
  | plain
  | escape
  /-- In an escape, with so many digits to come; `lead` is the first half of a pair. -/
  | digits (left value : Nat) (lead : Option Nat)
  /-- Behind the first half of a pair, where the escape of the second has to begin. -/
  | between (lead : Nat)
  | betweenEscape (lead : Nat)

/-- The character that a letter behind a backslash stands for. -/
def letter? (c : Char) : Option Char :=
  if c = '"' || c = '\\' || c = '/' then some c
  else if c = 'b' then some '\x08'
  else if c = 'f' then some '\x0c'
  else if c = 'n' then some '\n'
  else if c = 'r' then some '\r'
  else if c = 't' then some '\t'
  else none

/-- The value of a decimal digit. -/
def digit? (c : Char) : Option Nat :=
  if '0' ≤ c ∧ c ≤ '9' then some (c.toNat - '0'.toNat)
  else if 'a' ≤ c ∧ c ≤ 'f' then some (c.toNat - 'a'.toNat + 10)
  else if 'A' ≤ c ∧ c ≤ 'F' then some (c.toNat - 'A'.toNat + 10)
  else none

/-- How many bytes characters take. -/
def byteLength (cs : List Char) : Nat := cs.foldl (fun n c => n + c.utf8Size) 0

/-- What a complete number in an escape means: a character, the first half of a pair, or nothing. -/
def escaped (checked : Bool) (value : Nat) : Option Nat → Except Error (Option Char × Place)
  | none =>
    if 0xD800 ≤ value ∧ value ≤ 0xDBFF then
      if checked then .ok (none, .between value) else .ok (none, .plain)
    else if 0xDC00 ≤ value ∧ value ≤ 0xDFFF then
      if checked then .error .malformed else .ok (none, .plain)
    else .ok (some (Char.ofNat value), .plain)
  | some lead =>
    if 0xDC00 ≤ value ∧ value ≤ 0xDFFF then
      .ok (some (Char.ofNat (0x10000 + (lead - 0xD800) * 0x400 + (value - 0xDC00))), .plain)
    else .error .malformed

/-- What is to be done with the next character of a text between quotes: it ends, or goes on elsewhere,
perhaps with a character of its value. An escape by number needs four more bytes. -/
def textStep (checked : Bool) (place : Place) (c : Char) (rest : List Char) :
    Except Error (Option (Option Char × Place)) :=
  let number (lead : Option Nat) : Except Error (Option (Option Char × Place)) :=
    if byteLength (rest.take 4) < 4 then .error .unfinished
    else .ok (some (none, .digits 4 0 lead))
  match place with
  | .plain =>
    if c = '"' then .ok none
    else if c = '\\' then .ok (some (none, .escape))
    else if c.toNat < 0x20 then .error .malformed
    else .ok (some (some c, .plain))
  | .escape =>
    if c = 'u' then number none
    else match letter? c with
      | some d => .ok (some (some d, .plain))
      | none => .error .malformed
  | .digits left value lead =>
    match digit? c with
    | none => .error .malformed
    | some d =>
      if left ≤ 1 then (escaped checked (value * 16 + d) lead).map some
      else .ok (some (none, .digits (left - 1) (value * 16 + d) lead))
  | .between lead => if c = '\\' then .ok (some (none, .betweenEscape lead)) else .error .malformed
  | .betweenEscape lead => if c = 'u' then number (some lead) else .error .malformed

/-- The characters up to the closing quote, and what is left behind it. -/
def textFrom (checked : Bool) : Place → List Char → Except Error (List Char × List Char)
  | _, [] => .error .unfinished
  | place, c :: cs => do
    match ← textStep checked place c cs with
    | none => pure ([], cs)
    | some (value, next) =>
      let (more, rest) ← textFrom checked next cs
      pure (value.toList ++ more, rest)

/-- Reads a text up to its closing quote, once the first quote is taken. -/
def textBody : Read String := fun cs =>
  (textFrom true .plain cs).map fun r => (String.ofList r.1, r.2)

/-- Passes over such a text without asking whether its escapes make sense. -/
def skipText : Read Unit := fun cs => (textFrom false .plain cs).map fun r => ((), r.2)

/-! ### Numbers -/

/-- Takes as many digits as there are. -/
def takeDigits : Read (List Char) := fun cs =>
  .ok (cs.takeWhile Char.isDigit, cs.dropWhile Char.isDigit)

/-- The character that follows without blanks. -/
def here : Read (Option Char) := fun cs => .ok (cs.head?, cs)

/-- Reads digits of which there has to be one. A number that is `checked` and ends early is unfinished. -/
def someDigits (checked : Bool) : Read (List Char) := do
  match ← here with
  | none => if checked then unfinished else malformed
  | some c => if c.isDigit then takeDigits else malformed

/-- The digits before the point: a zero, or digits that do not begin with one. -/
def wholeDigits (checked : Bool) : Read (List Char) := do
  let ds ← someDigits checked
  match ds with
  | '0' :: _ :: _ => malformed
  | _ => pure ds

/-- A number as it is written. -/
structure Numeral where
  negative : Bool
  whole : List Char
  fraction : Option (List Char)
  exponent : Option (Bool × List Char)

/-- Reads a number by its parts. -/
def numeral (checked : Bool) : Read Numeral := do
  let negative := (← here) == some '-'
  if negative then drop
  let whole ← wholeDigits checked
  let fraction ← do
    if (← here) == some '.' then
      drop
      pure (some (← someDigits checked))
    else pure none
  let marked := (← here) == some 'e' || (← here) == some 'E'
  let exponent ← do
    if marked then
      drop
      let minus := (← here) == some '-'
      if minus || (← here) == some '+' then drop
      pure (some (minus, ← someDigits checked))
    else pure none
  pure ⟨negative, whole, fraction, exponent⟩

/-- The greatest number that an integer without sign is held in. -/
def wordLimit : Nat := Nat.pow 2 64 - 1

/-- The number that digits are, as far as it fits, and the digits left. -/
def takeWord (start : Nat) : List Char → Nat × List Char
  | [] => (start, [])
  | c :: cs =>
    let next := start * 10 + (c.toNat - '0'.toNat)
    if next ≤ wordLimit then takeWord next cs else (start, c :: cs)

/-- A power of ten. -/
def powerOfTen (n : Nat) : Float := Float.ofScientific 1 false n

/-- Divides by powers of ten, no more than 308 at a time. -/
def divideByTens : Nat → Nat → Float → Float
  | 0, _, x => x
  | k + 1, n, x =>
    if n ≤ 308 then x / powerOfTen n
    else if x == 0.0 then x
    else divideByTens k (n - 308) (x / powerOfTen 308)

/-- A word times a power of ten, or nothing if that is out of range. -/
def scale? (word : Nat) (power : Int) : Option Float :=
  let x := (UInt64.ofNat word).toFloat
  if power < 0 then some (divideByTens 4 (-power).toNat x)
  else if power.toNat ≤ 308 then
    let y := x * powerOfTen power.toNat
    if y.isInf then none else some y
  else if x == 0.0 then some x
  else none

/-- The greatest exponent that is counted. -/
def exponentLimit : Nat := Nat.pow 2 31 - 1

/-- The value of a number with a point, an exponent or too many digits. Digits beyond a word of sixty-four
bits do not count, but for their number. -/
def Numeral.float? (n : Numeral) : Option Float :=
  let (whole, extra) := takeWord 0 n.whole
  let digits := n.fraction.getD []
  let (word, left) := takeWord whole digits
  let start : Int := extra.length + left.length - digits.length
  let size? := match n.exponent with
    | none => scale? word start
    | some (minus, ds) =>
      let e := ds.foldl (fun e (c : Char) => e * 10 + (c.toNat - '0'.toNat)) 0
      if e > exponentLimit then if word = 0 || minus then some 0.0 else none
      else scale? word (if minus then start - e else start + e)
  size?.map fun x => if n.negative then -x else x

/-- The value of a number, if it is not out of range. -/
def Numeral.value? (n : Numeral) : Option Json :=
  let (word, extra) := takeWord 0 n.whole
  if n.fraction.isSome || n.exponent.isSome || !extra.isEmpty then n.float?.map .float
  else if !n.negative then some (.integer word)
  else if word = 0 || word > Nat.pow 2 63 then n.float?.map .float
  else some (.integer (-(word : Int)))

/-- Reads a number: an integer where it can be held, or else the nearest fraction. -/
def number : Read Json := do
  match (← numeral true).value? with
  | some v => pure v
  | none => malformed

/-! ### Lists and objects -/

/-- Reads items up to the closing bracket, each of them with a running result. -/
def itemsFrom (item : σ → Read σ) (first : Bool) : Nat → σ → Read σ
  | 0, _ => malformed
  | n + 1, s => do
    match ← peek with
    | none => unfinished
    | some ']' =>
      drop
      pure s
    | some c =>
      if first then itemsFrom item false n (← item s)
      else if c = ',' then
        drop
        match ← peek with
        | none => unfinished
        | some ']' => malformed
        | some _ => itemsFrom item false n (← item s)
      else malformed

/-- Reads the items of a list from behind its bracket. -/
def items (item : σ → Read σ) (s : σ) : Read σ := fun cs => itemsFrom item true (cs.length + 1) s cs

/-- Reads a list that holds at most one item for each of some readers, from behind its bracket. -/
def tupleFrom (first : Bool) : List (σ → Read σ) → σ → Read σ
  | [], s => do
    match ← peek with
    | none => unfinished
    | some ']' =>
      drop
      pure s
    | some _ => malformed
  | item :: rest, s => do
    match ← peek with
    | none => unfinished
    | some ']' =>
      drop
      pure s
    | some c =>
      if first then tupleFrom false rest (← item s)
      else if c = ',' then
        drop
        match ← peek with
        | none => unfinished
        | some ']' => malformed
        | some _ => tupleFrom false rest (← item s)
      else malformed

/-- Reads a list that holds at most one item for each of some readers, from behind its bracket. -/
def tuple (readers : List (σ → Read σ)) (s : σ) : Read σ := tupleFrom true readers s

/-- Takes the colon between the name of a field and its value. -/
def colon : Read Unit := do
  match ← peek with
  | none => unfinished
  | some ':' => drop
  | some _ => malformed

/-- Reads the name of a field at its quote, and lets the reader of the field go on. -/
def fieldWith (field : σ → String → Read σ) (s : σ) : Read σ := do
  match ← peek with
  | none => unfinished
  | some '"' =>
    drop
    field s (← textBody)
  | some _ => malformed

/-- Reads fields up to the closing brace, which stays, each of them with a running result. -/
def fieldsFrom (field : σ → String → Read σ) (first : Bool) : Nat → σ → Read σ
  | 0, _ => malformed
  | n + 1, s => do
    match ← peek with
    | none => unfinished
    | some '}' => pure s
    | some c =>
      if first then fieldsFrom field false n (← fieldWith field s)
      else if c = ',' then
        drop
        match ← peek with
        | some '}' => malformed
        | _ => fieldsFrom field false n (← fieldWith field s)
      else malformed

/-- Reads the fields of an object from behind its brace. -/
def fields (field : σ → String → Read σ) (s : σ) : Read σ := fun cs =>
  fieldsFrom field true (cs.length + 1) s cs

/-! ### Values -/

/-- Reads a value that is not used. Every level of it takes a character. -/
def skipValue : Nat → Read Unit
  | 0 => malformed
  | n + 1 => do
    match ← peek with
    | none => unfinished
    | some 'n' => exactly "null".toList
    | some 't' => exactly "true".toList
    | some 'f' => exactly "false".toList
    | some '"' =>
      drop
      skipText
    | some '[' =>
      drop
      items (fun _ => skipValue n) ()
    | some '{' =>
      drop
      fields (fun _ _ => do
        colon
        skipValue n) ()
      drop
    | some c => if c = '-' || c.isDigit then discard (numeral false) else malformed

/-- Passes over a value that nobody asks for. -/
def ignored : Read Unit := fun cs => skipValue (cs.length + 1) cs

/-- Reads a value, given what reads the values within it, if any may be. -/
def valueWith (inner : Option (Read Json)) : Read Json := do
  match ← peek with
  | none => unfinished
  | some 'n' =>
    exactly "null".toList
    pure .null
  | some 't' =>
    exactly "true".toList
    pure (.boolean true)
  | some 'f' =>
    exactly "false".toList
    pure (.boolean false)
  | some '"' =>
    drop
    pure (.text (← textBody))
  | some '[' =>
    match inner with
    | none => malformed
    | some item =>
      drop
      let found ← items (fun found => do pure (found ++ [← item])) []
      pure (.list found)
  | some '{' =>
    match inner with
    | none => malformed
    | some item =>
      drop
      let found ← fields (fun found k => do
        colon
        pure (found ++ [(k, ← item)])) []
      drop
      pure (.object found)
  | some c => if c = '-' || c.isDigit then number else malformed

/-- Reads a value in which lists and objects are nested no deeper than given. -/
def value : Nat → Read Json
  | 0 => valueWith none
  | n + 1 => valueWith (some (value n))

/-- Says that the value at the front is not what was expected there. -/
def wrongType {α : Type} (expected : String) : Read α := do
  match ← peek with
  | none => unfinished
  | some '[' => misfit (.wrongType .list expected)
  | some '{' => misfit (.wrongType .object expected)
  | some _ =>
    let v ← valueWith none
    misfit (.wrongType v.found expected)

/-- Reads a text, and complains about anything else. -/
def expectText (expected : String) : Read String := do
  match ← peek with
  | some '"' =>
    drop
    textBody
  | _ => wrongType expected

/-- Reads a truth value, and complains about anything else. -/
def expectBool : Read Bool := do
  match ← peek with
  | some 't' =>
    exactly "true".toList
    pure true
  | some 'f' =>
    exactly "false".toList
    pure false
  | _ => wrongType "a boolean"

/-- Reads what may also be null. -/
def optional {α : Type} (read : Read α) : Read (Option α) := do
  match ← peek with
  | some 'n' =>
    exactly "null".toList
    pure none
  | _ => pure (some (← read))

/-- Reads one of some names, written alone or as the only field of an object, whose value is null. -/
def variant {α : Type} (depth : Nat) (known : List (String × α)) : Read α := do
  let named : Read α := do
    let name ← expectText "variant identifier"
    match known.lookup name with
    | some a => pure a
    | none => misfit (.unknownVariant name (known.map (·.1)))
  match ← peek with
  | none => unfinished
  | some '"' => named
  | some '{' =>
    if depth = 0 then malformed
    else
      drop
      let a ← named
      colon
      match ← peek with
      | some 'n' => exactly "null".toList
      | _ => wrongType "unit"
      match ← peek with
      | none => unfinished
      | some '}' =>
        drop
        pure a
      | some _ => malformed
  | some _ => malformed

end Read

/-- Reads a whole text, behind which only blanks may follow. -/
def parse {α : Type} (read : Read α) (text : String) : Except Error α := do
  let (a, rest) ← read text.toList
  if (rest.dropWhile Read.isBlank).isEmpty then pure a else throw .malformed

/-- The value that a whole text is. -/
def ofText (text : String) : Except Error Json := parse (Read.value Read.depthLimit) text

end RouteTrees.Json
