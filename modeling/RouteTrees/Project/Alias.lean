import RouteTrees.Path.Basic

/-!
# Path aliases

An alias lets imports begin with a short pattern that stands for a directory or file. `AliasMap` keeps
aliases in the order in which they are tried: the longest first.
-/

namespace RouteTrees

/-- What a text has behind a given front, if it has that front. -/
def textAfter? (front text : String) : Option String :=
  if front.toList.isPrefixOf text.toList then
    some (String.ofList (text.toList.drop front.toList.length))
  else none

/-- A text without its first star. -/
def withoutStar (text : String) : String := String.ofList (text.toList.erase '*')

/-- A pattern and what it stands for. -/
structure Alias where
  pattern : String
  target : Path
deriving DecidableEq, Repr

namespace Alias

/-- What an import has to begin with: the pattern without its star. -/
def stem (a : Alias) : String := withoutStar a.pattern

/-- Whether the pattern of an alias has a star in it. -/
def isWildcard (a : Alias) : Bool := a.pattern.toList.contains '*'

/-- What follows the stem in an import that the alias applies to. Without a star, only the stem itself
or something behind a slash does. -/
def strip? (a : Alias) (specifier : String) : Option String :=
  match textAfter? a.stem specifier with
  | none => none
  | some rest =>
    if a.isWildcard || rest = "" then some rest else textAfter? "/" rest

/-- The order in which aliases are tried: longer stems first, and stems of one length in the order of
their text. -/
def precedes (a b : Alias) : Bool :=
  b.stem.utf8ByteSize < a.stem.utf8ByteSize ||
    a.stem.utf8ByteSize = b.stem.utf8ByteSize && a.stem ≤ b.stem

end Alias

/-- Aliases in the order in which they are tried. -/
structure AliasMap where
  aliases : List Alias
deriving DecidableEq, Repr

namespace AliasMap

/-- The map of a project that declares no alias. -/
def empty : AliasMap := ⟨[]⟩

/-- Drops every alias whose pattern is that of the one kept before it. -/
def dropRepeats (last : Option String) : List Alias → List Alias
  | [] => []
  | a :: rest =>
    if last = some a.pattern then dropRepeats last rest
    else a :: dropRepeats (some a.pattern) rest

/-- The map of a list of aliases. Of neighbours with one pattern the first is kept. -/
def ofList (aliases : List Alias) : AliasMap :=
  ⟨dropRepeats none (aliases.mergeSort Alias.precedes)⟩

/-- The number of declared aliases. -/
def size (m : AliasMap) : Nat := m.aliases.length

/-- The target of the alias with a given pattern. -/
def get? (m : AliasMap) (pattern : String) : Option Path :=
  (m.aliases.find? fun a => a.pattern = pattern).map (·.target)

/-- The aliases that apply to an import, each with what follows its stem. -/
def matching (m : AliasMap) (specifier : String) : List (Alias × String) :=
  m.aliases.filterMap fun a => (a.strip? specifier).map fun rest => (a, rest)

end AliasMap

end RouteTrees
