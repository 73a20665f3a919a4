import RouteTrees.Script.Cursor

/-!
# Modifiers

The words before a member, a parameter or a declaration that qualify it. Each of them is also an
ordinary name, so a word counts as a modifier only where what follows can be qualified by it.
-/

namespace RouteTrees.Script.Parse

/-- Whether the current token may follow a modifier: the start of a member's name, or of more. -/
def canFollowModifier : Parse Bool := do
  match ← peek with
  | .word .. => pure true
  | .hashed _ => pure true
  | .text _ => pure true
  | .number => pure true
  | _ => seesAny ["[", "\x7b", "*", "..."]

/-- Whether a word has the place of a modifier, given that the current token is the one behind it. -/
def modifierFits (word : String) : Parse Bool := do
  if word = "const" then atWord "enum"
  else if word = "default" then pure false
  else if word = "export" then
    if ← seesAny ["*", "\x7b"] then pure false
    else if ← atWord "as" then pure false
    else canFollowModifier
  else if word = "static" then canFollowModifier
  else if ← afterBreak then pure false
  else canFollowModifier

/-- Where modifiers are being read. -/
structure ModifierPlace where
  /-- `const` may qualify what is no enumeration. -/
  constant : Bool := false
  /-- `static` may begin a block. -/
  block : Bool := false

/-- Whether the current token is a modifier, given those before it. -/
def atModifier (place : ModifierPlace) (seen : List String) : Parse Bool := do
  match ← peek with
  | .word n _ =>
    if !modifierWords.contains n then pure false
    else if n = "static" && seen.contains n then pure false
    else ahead do
      skip
      if n = "const" && place.constant then
        if ← afterBreak then pure false else canFollowModifier
      else if n = "static" && place.block then
        if ← sees "\x7b" then pure false else canFollowModifier
      else modifierFits n
  | _ => pure false

/-- Reads the modifiers of a place. -/
def modifiers (place : ModifierPlace) : Parse (List String) :=
  repeating (fun seen => do
    if ← atModifier place seen then
      match ← peek with
      | .word n _ =>
        bump
        flawIf (seen.contains n)
        pure (.again (seen ++ [n]))
      | _ => pure (.stop seen)
    else pure (.stop seen)) []

/-- Notes a modifier that is not allowed where it stands. -/
def allowModifiers (allowed seen : List String) : Parse Unit :=
  flawIf (!seen.all allowed.contains)

/-- Takes a word that qualifies the member behind it, such as `get`. -/
def eatQualifier (word : String) : Parse Bool := do
  if ← atWord word then
    if ← ahead (do skip; canFollowModifier) then bump; pure true else pure false
  else pure false

end RouteTrees.Script.Parse
