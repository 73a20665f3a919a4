import RouteTrees.Proofs.Disk.Relisted
import RouteTrees.Proofs.Project.Resolving

/-!
# The source files of a project

Of what is below a directory, the regular files that are called like source files are collected, unless a
directory on the way to them is left out. Nothing else counts: not how the directory where the search begins
is called or reached, not what a file or a link is called that bears the name of such a directory, and not in
which order directories list what they hold. The index holds these files under the names of their places, so
what is found by a search is never in a directory that is left out.
-/

namespace RouteTrees

namespace Convention

/-- Whether a file of a name is a source file: by an extension that stands behind more than nothing. -/
def NamesSource (name : String) : Prop :=
  ∃ stem e, stem ≠ "" ∧ e ∈ sourceExtensions ∧ name = stem ++ "." ++ e

/-- Of a list that is tried in turn an item is taken, if any serves: that item or one before it. -/
theorem exists_first {α : Type} {l : List α} {a : α} (q : α → Bool) (mem : a ∈ l) (holds : q a = true) :
    ∃ b ∈ l, q b = true ∧ l.find? q = some b ∧ (b = a ∨ [b, a].Sublist l) := by
  obtain ⟨b, found⟩ := Option.isSome_iff_exists.mp (List.find?_isSome.mpr ⟨a, mem, holds⟩)
  refine ⟨b, List.mem_of_find?_eq_some found, List.find?_some found, found, ?_⟩
  obtain ⟨-, before, after, rfl, passed⟩ := List.find?_eq_some_iff_append.mp found
  rcases List.mem_append.mp mem with early | late
  · have fails := passed a early
    rw [holds] at fails
    cases fails
  · rcases List.mem_cons.mp late with rfl | behind
    · exact .inl rfl
    · exact .inr (((List.singleton_sublist.mpr behind).cons_cons b).trans (List.sublist_append_right _ _))

end Convention

/-- A path is of a source file if its name is one. -/
theorem Path.isSource_iff {p : Path} {name : String} (called : p.fileName? = some name) :
    p.isSource = true ↔ Convention.NamesSource name := by
  unfold isSource extension?
  rw [called, Option.bind_some]
  constructor
  · intro listed
    cases parts : splitName name with
    | mk stem extension =>
      rw [parts] at listed
      cases extension with
      | none => cases listed
      | some e =>
        obtain ⟨ne, -, spelled⟩ := eq_of_splitName parts
        exact ⟨stem, e, ne, List.contains_iff_mem.mp listed, spelled⟩
  · rintro ⟨stem, e, ne, listed, rfl⟩
    rw [splitName_dot ne (spelling_of_sourceExtension listed).2.2]
    exact List.contains_iff_mem.mpr listed

theorem Path.spelledOnce_of_isCanonical {paths : List Path} (canonical : ∀ p ∈ paths, p.IsCanonical) :
    SpelledOnce paths := fun p mem q mem' same =>
  (canonical p mem).eq_of_same (canonical q mem') (decide_eq_true same)

namespace Disk

variable {d : Disk} {root : Path} {start : Place}

section Collecting

variable (wellFormed : d.WellFormed) (located : d.locate true root = .ok start)
  (isDir : d.hasDir start = true) (notDash : root.components ≠ [.name "-"])
include wellFormed

theorem named_below {names : Place} {name : String}
    (isFile : d.hasFile (start ++ names ++ [name]) = true) : Place.Named (names ++ [name]) := by
  intro part mem
  apply named_of_hasFile wellFormed isFile
  rw [List.append_assoc]
  exact List.mem_append_right _ mem

include located

/-- What is reached from the start by names is called by the last of them. -/
theorem fileName?_below {names : Place} {name : String}
    (isFile : d.hasFile (start ++ names ++ [name]) = true) :
    (root.descend (names ++ [name])).fileName? = some name :=
  Path.fileName?_descend (locate_iff.mp located).1 (named_below wellFormed isFile)

include isDir

/-- The canonical name of a file that is reached from the start by names is the path of its place. -/
theorem canonical_below {names : Place} {name : String}
    (isFile : d.hasFile (start ++ names ++ [name]) = true) :
    d.canonical (root.descend (names ++ [name])) = (start ++ names ++ [name] : Place).toPath := by
  obtain ⟨content, there⟩ := hasFile_iff.mp isFile
  obtain ⟨es, begins⟩ := hasDir_iff.mp isDir
  have below : (Node.dir es).at? (names ++ [name]) = some (.file content) := by
    rw [← there, List.append_assoc, Node.at?_append d.root, begins, Option.bind_some]
  exact canonical_of_locate
    (locate_descend located begins below (fun _ => Node.noConfusion) (named_below wellFormed isFile))

include notDash

/-- A file that was collected is a regular file below the start, called like a source file, and on the way to
it no directory is left out. -/
theorem mem_sources_iff {p : Path} : p ∈ d.sources root ↔ ∃ (names : Place) (name : String),
    d.hasFile (start ++ names ++ [name]) = true ∧ names.Entered ∧ Convention.NamesSource name ∧
      p = root.descend (names ++ [name]) := by
  obtain ⟨entries, walk, walked⟩ := exists_walked wellFormed notDash located isDir
  rw [sources, List.mem_mergeSort, walkable, walk]
  simp only [List.mem_map, List.mem_filter, Bool.and_eq_true, decide_eq_true_eq]
  constructor
  · rintro ⟨e, ⟨mem, isFile, isSource⟩, rfl⟩
    obtain ⟨names, name, there, entered, rfl⟩ := walked.file_met_iff.mp ⟨mem, isFile⟩
    have called := fileName?_below wellFormed located there
    exact ⟨names, name, there, entered, (Path.isSource_iff called).mp isSource, rfl⟩
  · rintro ⟨names, name, there, entered, isSource, rfl⟩
    obtain ⟨mem, isFile⟩ := walked.file_met_iff.mpr ⟨names, name, there, entered, rfl⟩
    have called := fileName?_below wellFormed located there
    exact ⟨_, ⟨mem, isFile, (Path.isSource_iff called).mpr isSource⟩, rfl⟩

/-- The source files of a project ascend. -/
theorem ascending_sources : Path.Ascending (d.sources root) := by
  obtain ⟨entries, walk, walked⟩ := exists_walked wellFormed notDash located isDir
  rw [sources, walkable, walk]
  apply Path.ascending_mergeSort
  exact walked.apart.sublist (List.filter_sublist.map _)

/-- The index holds the files that were collected under the names of their places. -/
theorem mem_index_iff {q : Path} : q ∈ (FileIndex.ofDisk d root).files ↔ ∃ (names : Place) (name : String),
    d.hasFile (start ++ names ++ [name]) = true ∧ names.Entered ∧ Convention.NamesSource name ∧
      q = (start ++ names ++ [name] : Place).toPath := by
  have inFull {q : Path} : q ∈ (d.sources root).map d.canonical ↔ ∃ (names : Place) (name : String),
      d.hasFile (start ++ names ++ [name]) = true ∧ names.Entered ∧ Convention.NamesSource name ∧
        q = (start ++ names ++ [name] : Place).toPath := by
    rw [List.mem_map]
    constructor
    · rintro ⟨p, mem, rfl⟩
      obtain ⟨names, name, isFile, entered, isSource, rfl⟩ :=
        (mem_sources_iff wellFormed located isDir notDash).mp mem
      exact ⟨names, name, isFile, entered, isSource, canonical_below wellFormed located isDir isFile⟩
    · rintro ⟨names, name, isFile, entered, isSource, rfl⟩
      exact ⟨_, (mem_sources_iff wellFormed located isDir notDash).mpr ⟨names, name, isFile, entered, isSource, rfl⟩,
        canonical_below wellFormed located isDir isFile⟩
  have spelled : Path.SpelledOnce ((d.sources root).map d.canonical) := by
    apply Path.spelledOnce_of_isCanonical
    intro p mem
    obtain ⟨_, _, isFile, -, -, rfl⟩ := inFull.mp mem
    exact ⟨_, named_of_hasFile wellFormed isFile, rfl⟩
  rw [FileIndex.ofDisk, FileIndex.ofFiles, Path.mem_sortUnique_iff spelled, inFull]

/-- The index holds each file in one spelling. -/
theorem spelledOnce_index : Path.SpelledOnce (FileIndex.ofDisk d root).files := by
  apply Path.spelledOnce_of_isCanonical
  intro p mem
  obtain ⟨_, _, isFile, -, -, rfl⟩ := (mem_index_iff wellFormed located isDir notDash).mp mem
  exact ⟨_, named_of_hasFile wellFormed isFile, rfl⟩

end Collecting

/-- Nothing is collected from the standard input, so an index of it is empty. -/
theorem components_ne_dash_of_mem_index {q : Path} (mem : q ∈ (FileIndex.ofDisk d root).files) :
    root.components ≠ [.name "-"] := by
  rw [← isInput_eq_false_iff, Bool.eq_false_iff]
  intro isInput
  have sorted := Path.mem_of_mem_dropRepeats mem
  obtain ⟨source, listed, -⟩ := List.mem_map.mp (List.mem_mergeSort.mp sorted)
  rw [sources, walkable, walk, if_pos isInput] at listed
  simp [input] at listed

/-- Disks that differ in how directories list what they hold have the same source files. -/
theorem Relisted.sources_eq {d' : Disk} (same : d.Relisted d') (wellFormed : d.WellFormed)
    (wellFormed' : d'.WellFormed) (located : d.locate true root = .ok start)
    (isDir : d.hasDir start = true) (notDash : root.components ≠ [.name "-"]) :
    d'.sources root = d.sources root := by
  have located' : d'.locate true root = .ok start := (same.locate_eq true root).trans located
  have isDir' : d'.hasDir start = true := (same.hasDir_eq start).trans isDir
  apply (ascending_sources wellFormed' located' isDir' notDash).eq_of_mem_iff
    (ascending_sources wellFormed located isDir notDash)
  intro p
  rw [mem_sources_iff wellFormed' located' isDir' notDash, mem_sources_iff wellFormed located isDir notDash]
  simp only [same.hasFile_eq]

end Disk

/-! ## What a search finds -/

namespace Scope

/-- Whether what an import refers to was found by a search: because it could not be read from the importing
file on, or because an alias did not lead to it. -/
def IsSearched (s : Scope) (specifier : String) (r : Resolution) : Prop :=
  r.via = .search ∨ ∃ a rest, (a, rest) ∈ s.aliases.matching specifier ∧
    s.disk.sourceAt? (aliased a rest) = none ∧ s.through? a rest = some r

/-- What was found by a search is what the index finds by a suffix. -/
theorem exists_find?_of_isSearched {s : Scope} {importer : Path} {specifier : String} {r : Resolution}
    (resolved : s.resolve? importer specifier = some r) (searched : s.IsSearched specifier r) :
    ∃ suffix, s.index.find? suffix = some r.path := by
  rcases searched with via | ⟨a, rest, -, nothing, through⟩
  · rcases Option.or_eq_some_iff.mp resolved with relative | ⟨-, aliased⟩
    · split at relative
      · unfold relative? at relative
        split at relative
        · cases relative
          cases via
        · obtain ⟨p, found, rfl⟩ := Option.map_eq_some_iff.mp relative
          exact ⟨specifier, found⟩
      · cases relative
    · obtain ⟨⟨a, rest⟩, -, through⟩ := List.exists_of_findSome?_eq_some aliased
      cases via.symm.trans (via_of_through? through)
  · unfold through? at through
    simp only [nothing] at through
    obtain ⟨p, found, rfl⟩ := Option.map_eq_some_iff.mp through
    exact ⟨rest, found⟩

end Scope

/-- The source files of a project, whatever links there are and in whatever order directories list what they
hold, if their root is a directory and not spelled as a dash, which stands for the standard input. What is
collected ascends and is no more and no less than the regular files below the root that are called like source
files and reached by names alone, none of them that of a directory that is left out. The index holds these files
under their canonical names, which spell their places, so what is found by a search is below no directory that
is left out. -/
theorem Disk.sources_and_index {d : Disk} (wellFormed : d.WellFormed) {root : Path} {start : Place}
    (located : d.locate true root = .ok start) (isDir : d.hasDir start = true)
    (notDash : root.components ≠ [.name "-"]) :
    Path.Ascending (d.sources root) ∧
    (∀ p, p ∈ d.sources root ↔ ∃ (names : Place) (name : String),
      d.hasFile (start ++ names ++ [name]) = true ∧ (∀ part ∈ names, part ∉ Convention.ignoredDirectories) ∧
        Convention.NamesSource name ∧ p = root.descend (names ++ [name])) ∧
    (∀ q, q ∈ (FileIndex.ofDisk d root).files ↔ ∃ p ∈ d.sources root, q = d.canonical p) ∧
    (∀ (aliases : AliasMap) (importer : Path) (specifier : String) (r : Resolution),
      Scope.resolve? ⟨d, aliases, .ofDisk d root⟩ importer specifier = some r →
      Scope.IsSearched ⟨d, aliases, .ofDisk d root⟩ specifier r →
      ∃ (names : Place) (name : String), r.path = (start ++ names ++ [name] : Place).toPath ∧
        ∀ part ∈ names, part ∉ Convention.ignoredDirectories) ∧
    ∀ d', d'.WellFormed → d.Relisted d' →
      d'.sources root = d.sources root ∧ FileIndex.ofDisk d' root = FileIndex.ofDisk d root := by
  refine ⟨ascending_sources wellFormed located isDir notDash, fun p => mem_sources_iff wellFormed located isDir notDash,
    fun q => ?_, ?_, fun d' wellFormed' same => ?_⟩
  · -- the index, by way of the places of what is collected
    rw [mem_index_iff wellFormed located isDir notDash]
    constructor
    · rintro ⟨names, name, isFile, entered, isSource, rfl⟩
      exact ⟨_, (mem_sources_iff wellFormed located isDir notDash).mpr ⟨names, name, isFile, entered, isSource, rfl⟩,
        (canonical_below wellFormed located isDir isFile).symm⟩
    · rintro ⟨p, mem, rfl⟩
      obtain ⟨names, name, isFile, entered, isSource, rfl⟩ :=
        (mem_sources_iff wellFormed located isDir notDash).mp mem
      exact ⟨names, name, isFile, entered, isSource, canonical_below wellFormed located isDir isFile⟩
  · intro aliases importer specifier r resolved searched
    obtain ⟨suffix, found⟩ := Scope.exists_find?_of_isSearched resolved searched
    obtain ⟨names, name, -, entered, -, spelled⟩ :=
      (mem_index_iff wellFormed located isDir notDash).mp (FileIndex.mem_of_find? found)
    exact ⟨names, name, spelled, entered⟩
  · have sources := same.sources_eq wellFormed wellFormed' located isDir notDash
    refine ⟨sources, ?_⟩
    rw [FileIndex.ofDisk, FileIndex.ofDisk, sources, funext same.canonical_eq]

/-- A directory that bears the name of one that is left out, and in it a hidden directory with a source file,
a directory that is left out, and a file and a link that only bear such names. -/
def Disk.tooled : Disk := ⟨.dir [("node_modules", .dir [(".storybook", .dir [("a.ts", .file .empty)]),
  (".next", .dir [("b.ts", .file .empty)]), (".git", .file .empty), ("node_modules", .link "..")]),
  ("app", .link "node_modules")], []⟩

theorem Disk.wellFormed_tooled : tooled.WellFormed := ⟨rfl, by decide⟩

/-- What a walk that begins there meets is collected, but for what is left out. -/
theorem Disk.sources_and_index_tooled :
    ⟨"/node_modules/.storybook/a.ts"⟩ ∈ tooled.sources ⟨"/node_modules"⟩ ∧
      ⟨"/node_modules/.next/b.ts"⟩ ∉ tooled.sources ⟨"/node_modules"⟩ ∧
      ⟨"/node_modules/.storybook/a.ts"⟩ ∈ (FileIndex.ofDisk tooled ⟨"/node_modules"⟩).files ∧
      sources ⟨.dir tooled.root.entries.reverse, []⟩ ⟨"/node_modules"⟩ = tooled.sources ⟨"/node_modules"⟩ := by
  have isDir : tooled.hasDir ["node_modules"] = true := rfl
  have located : tooled.locate true ⟨"/node_modules"⟩ = .ok ["node_modules"] := by
    have spelled : Place.toPath ["node_modules"] = ⟨"/node_modules"⟩ := by decide
    obtain ⟨es, there⟩ := hasDir_iff.mp isDir
    rw [← spelled]
    exact locate_toPath wellFormed_tooled there fun _ => Node.noConfusion
  obtain ⟨-, collected, indexed, -, listing⟩ := sources_and_index wellFormed_tooled located isDir (by decide)
  have isSource : Convention.NamesSource "a.ts" := ⟨"a", "ts", by decide⟩
  have mem : ⟨"/node_modules/.storybook/a.ts"⟩ ∈ tooled.sources ⟨"/node_modules"⟩ :=
    (collected _).mpr ⟨[".storybook"], "a.ts", rfl, by decide, isSource, by decide⟩
  refine ⟨mem, ?_, (indexed _).mpr ⟨_, mem, ?_⟩, (listing _ ?_ ?_).1⟩
  · intro met
    obtain ⟨names, name, isFile, entered, -, spelled⟩ := (collected _).mp met
    have same : (Path.mk "/node_modules/.next/b.ts").components =
        ((Path.mk "/node_modules").descend ([".next"] ++ ["b.ts"])).components := by decide
    have ways := Path.descend_inj (by decide) (by decide) (named_below wellFormed_tooled isFile)
      (same.symm.trans (congrArg Path.components spelled))
    obtain ⟨rfl, -⟩ := List.append_inj' ways rfl
    exact entered ".next" (by decide) (by decide)
  · have isFile : tooled.hasFile (["node_modules"] ++ [".storybook"] ++ ["a.ts"]) = true := rfl
    exact (canonical_below wellFormed_tooled located isDir isFile).symm
  · exact ⟨rfl, by decide⟩
  · exact relisted_of_perm (List.reverse_perm _) (by decide) []

end RouteTrees
