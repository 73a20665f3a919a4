import RouteTrees.Disk.Locate
import RouteTrees.Project.Alias
import RouteTrees.Project.FileIndex

/-!
# What an import refers to

An import that begins with a dot is read from the directory of the importing file on, and if nothing is
there, looked for in the whole project. What is not found so may be found through an alias: the aliases
that apply are tried in their order, each first as the place that it stands for and then by a search. All
else is a package, which is none of the project's files.
-/

namespace RouteTrees

namespace Path

/-- A path with an extension put behind its name, whatever the name ends in. -/
def addExtension (p : Path) (extension : String) : Path := ⟨p.text ++ "." ++ extension⟩

end Path

namespace Disk

/-- The files that a path without regard for its extension may mean, in order of priority: what it says
itself, what an extension makes of it, and the index of the directory that it is. -/
def candidates (d : Disk) (p : Path) : List Path :=
  (if p.isSource then [p] else []) ++ Convention.resolveExtensions.map p.addExtension ++
    (if d.isDir p then Convention.indexFiles.map fun f => p.join ⟨f⟩ else [])

/-- The source file that a path means, under the name that it has once links are followed. -/
def sourceAt? (d : Disk) (p : Path) : Option Path := ((d.candidates p).find? d.isFile).map d.canonical

/-- A source file that a path means is at a place, and named after it. -/
theorem place_of_sourceAt? {d : Disk} {p q : Path} (found : d.sourceAt? p = some q) :
    ∃ place content, d.root.at? place = some (.file content) ∧ q = Place.toPath place := by
  obtain ⟨candidate, first, rfl⟩ := Option.map_eq_some_iff.mp found
  obtain ⟨place, content, located, there⟩ := isFile_iff.mp (List.find?_some first)
  exact ⟨place, content, there, canonical_of_locate located⟩

end Disk

/-- How an import was found. -/
inductive Via where
  /-- From the directory of the importing file on. -/
  | relative
  /-- Somewhere in the project. -/
  | search
  /-- Through the alias of a pattern. -/
  | byAlias (pattern : String)
deriving DecidableEq, Repr

/-- How a way of resolving is reported. -/
def Via.name : Via → String
  | .relative => "relative"
  | .search => "search"
  | .byAlias pattern => "alias:" ++ pattern

/-- The file that an import refers to, and how it was found. -/
structure Resolution where
  path : Path
  via : Via
deriving DecidableEq, Repr

/-- What imports may refer to. -/
structure Scope where
  disk : Disk
  aliases : AliasMap
  index : FileIndex

namespace Scope

/-- What an import refers to that is read from the directory of the importing file on. -/
def relative? (s : Scope) (importer : Path) (specifier : String) : Option Resolution :=
  match s.disk.sourceAt? (((importer.parent?.getD ⟨"."⟩).join ⟨specifier⟩).clean) with
  | some p => some ⟨p, .relative⟩
  | none => (s.index.find? specifier).map fun p => ⟨p, .search⟩

/-- The place that an alias gives an import, of which so much is left behind the stem. -/
def aliased (a : Alias) (rest : String) : Path := if rest = "" then a.target else a.target.join ⟨rest⟩

/-- What an import refers to through an alias that leaves so much of it. -/
def through? (s : Scope) (a : Alias) (rest : String) : Option Resolution :=
  match s.disk.sourceAt? (aliased a rest) with
  | some p => some ⟨p, .byAlias a.pattern⟩
  | none => (s.index.find? rest).map fun p => ⟨p, .byAlias a.pattern⟩

/-- What an import refers to through the first alias that leads to something. -/
def byAlias? (s : Scope) (specifier : String) : Option Resolution :=
  (s.aliases.matching specifier).findSome? fun (a, rest) => s.through? a rest

/-- Whether an import is to be read from the directory of the importing file on. -/
def isRelative (specifier : String) : Bool := specifier.toList.head? = some '.'

/-- What an import refers to, if it is a file of the project. -/
def resolve? (s : Scope) (importer : Path) (specifier : String) : Option Resolution :=
  (if isRelative specifier then s.relative? importer specifier else none).or (s.byAlias? specifier)

/-- What is found from the directory of the importing file on is what the import refers to. -/
theorem resolve?_of_sourceAt? {s : Scope} {importer p : Path} {specifier : String}
    (relative : isRelative specifier = true)
    (source : s.disk.sourceAt? (((importer.parent?.getD ⟨"."⟩).join ⟨specifier⟩).clean) = some p) :
    s.resolve? importer specifier = some ⟨p, .relative⟩ := by
  have found : s.relative? importer specifier = some ⟨p, .relative⟩ := by
    unfold relative?
    simp only [source]
  rw [resolve?, if_pos relative, found, Option.some_or]

/-- An import that says where a source file is refers to the file, under the name that it has once links are
followed. -/
theorem resolve?_of_locate {s : Scope} {importer p : Path} {specifier : String} {place : Place}
    {content : ByteArray} (relative : isRelative specifier = true)
    (target : ((importer.parent?.getD ⟨"."⟩).join ⟨specifier⟩).clean = p) (isSource : p.isSource = true)
    (located : s.disk.locate true p = .ok place) (there : s.disk.root.at? place = some (.file content)) :
    s.resolve? importer specifier = some ⟨place.toPath, .relative⟩ := by
  refine resolve?_of_sourceAt? relative ?_
  have isFile := Disk.isFile_iff.mpr ⟨place, content, located, there⟩
  rw [target, Disk.sourceAt?, Disk.candidates, if_pos isSource, List.singleton_append, List.cons_append,
    List.find?_cons, isFile, Option.map_some, Disk.canonical_of_locate located]

/-- Whether a path is that of a source file on the disk, or in the index. -/
def IsSource (s : Scope) (p : Path) : Prop := (∃ q, s.disk.sourceAt? q = some p) ∨ p ∈ s.index.files

/-- What is read from the directory of the importing file on is a source file. -/
theorem isSource_of_relative? {s : Scope} {importer : Path} {specifier : String} {r : Resolution}
    (resolved : s.relative? importer specifier = some r) : s.IsSource r.path := by
  unfold relative? at resolved
  split at resolved
  · next p source =>
    cases resolved
    exact .inl ⟨_, source⟩
  · obtain ⟨p, found, rfl⟩ := Option.map_eq_some_iff.mp resolved
    exact .inr (FileIndex.mem_of_find? found)

/-- What an alias leads to is a source file. -/
theorem isSource_of_through? {s : Scope} {a : Alias} {rest : String} {r : Resolution}
    (resolved : s.through? a rest = some r) : s.IsSource r.path := by
  unfold through? at resolved
  split at resolved
  · next p source =>
    cases resolved
    exact .inl ⟨_, source⟩
  · obtain ⟨p, found, rfl⟩ := Option.map_eq_some_iff.mp resolved
    exact .inr (FileIndex.mem_of_find? found)

/-- What a specifier resolves to is a source file. -/
theorem isSource_of_resolve? {s : Scope} {importer : Path} {specifier : String} {r : Resolution}
    (resolved : s.resolve? importer specifier = some r) : s.IsSource r.path := by
  rcases Option.or_eq_some_iff.mp resolved with relative | ⟨-, aliased⟩
  · split at relative
    · exact isSource_of_relative? relative
    · cases relative
  · obtain ⟨⟨a, rest⟩, -, through⟩ := List.exists_of_findSome?_eq_some aliased
    exact isSource_of_through? through

/-- All files that imports can refer to. -/
def files (s : Scope) : List Path := s.disk.root.files.map Place.toPath ++ s.index.files

/-- What an import refers to is one of the files that imports can refer to. -/
theorem path_mem_files {s : Scope} {importer : Path} {specifier : String} {r : Resolution}
    (resolved : s.resolve? importer specifier = some r) : r.path ∈ s.files := by
  rcases isSource_of_resolve? resolved with ⟨p, source⟩ | indexed
  · obtain ⟨place, content, there, named⟩ := Disk.place_of_sourceAt? source
    rw [named]
    exact List.mem_append_left _ (List.mem_map_of_mem (Node.mem_files_of_at? there))
  · exact List.mem_append_right _ indexed

end Scope

end RouteTrees
