import RouteTrees.Project.Basic
import RouteTrees.Proofs.Disk.Emptied
import RouteTrees.Proofs.Path.Least
import RouteTrees.Proofs.Project.Sources

/-!
# What is found nearest to the root

The routing directory of a project and its compiler configuration are looked for by name, and the one with the
shortest way to it is taken. Of what is below the root everything of the name counts, unless it is or is within a
directory that is left out, and a link counts for nothing. What is taken is thereby known by the tree alone,
in whatever order directories list what they hold.
-/

namespace RouteTrees

/-! ## The shallowest of some paths -/

namespace Path

/-- Whether a path has fewer components than another, or as many and comes before it. -/
def Shallower (p q : Path) : Prop :=
  p.components.length < q.components.length ∨ p.components.length = q.components.length ∧ p.Before q

instance (p q : Path) : Decidable (Shallower p q) :=
  inferInstanceAs (Decidable (p.components.length < q.components.length ∨
    p.components.length = q.components.length ∧ p.compare q = .lt))

theorem shallower_iff {p q : Path} : shallower p q = true ↔ Shallower p q := by
  simp [shallower, Shallower, Before]

theorem ranks_shallower : Ranks shallower := ranks_of_size shallower_iff

/-- What the code finds is the least path. -/
theorem shallowest?_eq_least? (paths : List Path) : shallowest? paths = least? shallower paths := by
  induction paths with
  | nil => rfl
  | cons p rest ih =>
    cases found : least? shallower rest with
    | none =>
      rw [found] at ih
      simp only [shallowest?, least?, ih, found]
    | some q =>
      rw [found] at ih
      simp only [shallowest?, least?, ih, found]

theorem shallowest?_eq_none_iff {paths : List Path} : shallowest? paths = none ↔ paths = [] := by
  rw [shallowest?_eq_least?, least?_eq_none_iff]

/-- The shallowest of some paths is the one that is shallower than all others. -/
theorem shallowest?_eq_some_iff {paths : List Path} {p : Path} (spelled : SpelledOnce paths) :
    shallowest? paths = some p ↔ p ∈ paths ∧ ∀ q ∈ paths, q ≠ p → Shallower p q := by
  rw [shallowest?_eq_least?, least?_eq_some_iff ranks_shallower spelled]
  simp only [shallower_iff]

/-- Which path is the shallowest does not depend on the order of a list, nor on repetition. -/
theorem shallowest?_congr {paths paths' : List Path} (spelled : SpelledOnce paths)
    (same : ∀ p, p ∈ paths' ↔ p ∈ paths) : shallowest? paths' = shallowest? paths := by
  have spelled' : SpelledOnce paths' := fun p mem q mem' =>
    spelled p ((same p).mp mem) q ((same q).mp mem')
  apply Option.ext
  intro p
  rw [shallowest?_eq_some_iff spelled', shallowest?_eq_some_iff spelled]
  simp only [same]

end Path

namespace Disk

variable {d : Disk} {root : Path}

/-! ## Where a walk begins -/

/-- What is met within a directory is not the directory itself. -/
theorem depth_pos_of_mem_walkEntries {es : List (String × Node)} {e : Entry}
    (mem : e ∈ walkEntries root 1 es) : 0 < e.depth := by
  rw [walkEntries_eq root "" 0] at mem
  obtain ⟨⟨way, n⟩, through, rfl⟩ := List.mem_map.mp mem
  obtain ⟨name, c, rest, begins, -⟩ := Node.mem_waysAll_iff.mp through
  have begins : way = name :: rest := begins
  simp [entryAt, begins]

/-- Only from a directory a walk goes on. -/
theorem exists_start_of_mem_walkable {e : Entry} (mem : e ∈ d.walkable root) (below : 0 < e.depth) :
    root.components ≠ [.name "-"] ∧ ∃ start, d.locate true root = .ok start ∧ d.hasDir start = true := by
  rw [walkable] at mem
  split at mem
  · next entries walked =>
    rcases begins_of_walk walked with rfl | ⟨notDash, start, n, first, located, there, begins, rfl⟩
    · rw [List.mem_singleton.mp mem] at below
      cases below
    · rcases List.mem_cons.mp mem with rfl | later
      · exact absurd begins.depth (Nat.ne_of_gt below)
      · cases n with
        | file _ | link _ => cases later
        | dir es => exact ⟨notDash, start, located, hasDir_iff.mpr ⟨es, there⟩⟩
  · cases mem

/-- A file is met where a walk begins if the path of the walk leads to one. -/
theorem file_met_first_iff {e : Entry} : (e ∈ d.walkable root ∧ e.kind = .file) ∧ e.depth = 0 ↔
    root.components ≠ [.name "-"] ∧ ∃ start, d.locate true root = .ok start ∧ d.hasFile start = true ∧
      e = ⟨root, root.fileName?.getD root.text, .file, 0⟩ := by
  constructor
  · rintro ⟨⟨mem, isFile⟩, depth⟩
    rw [walkable] at mem
    split at mem
    · next entries walked =>
      rcases begins_of_walk walked with rfl | ⟨notDash, start, n, first, located, there, begins, rfl⟩
      · rw [List.mem_singleton.mp mem] at isFile
        cases isFile
      · rcases List.mem_cons.mp mem with rfl | below
        · have isFile := begins.isFile_iff.mp isFile
          exact ⟨notDash, start, located, by rw [hasFile, there, Option.any_some, isFile],
            begins.eq_of_isFile isFile⟩
        · exact absurd depth (Nat.ne_of_gt (depth_pos_of_mem_walkEntries below))
    · cases mem
  · rintro ⟨notDash, start, located, isFile, rfl⟩
    obtain ⟨content, there⟩ := hasFile_iff.mp isFile
    obtain ⟨first, begins, walked⟩ := exists_begins notDash located there
    have mem : first ∈ d.walkable root := by
      rw [walkable, walked]
      exact List.mem_cons_self
    rw [begins.eq_of_isFile rfl] at mem
    exact ⟨⟨mem, rfl⟩, rfl⟩

/-! ## What is below a root -/

/-- Whether a path is that of a directory of a name below a root: of one that is reached by names alone, none of
them, its own included, that of a directory that is left out. A dash is no root, but the standard input. -/
def HoldsDirectory (d : Disk) (root : Path) (name : String) (p : Path) : Prop :=
  root.components ≠ [.name "-"] ∧ ∃ start names : Place, d.locate true root = .ok start ∧
    d.hasDir (start ++ names ++ [name]) = true ∧
    (∀ part ∈ names ++ [name], part ∉ Convention.ignoredDirectories) ∧ p = root.descend (names ++ [name])

/-- Whether a path is that of a regular file of a name below a root that is reached by names alone, none of them
that of a directory that is left out, or is the root, if that leads to such a file. -/
def HoldsFile (d : Disk) (root : Path) (name : String) (p : Path) : Prop :=
  root.components ≠ [.name "-"] ∧ ∃ start : Place, d.locate true root = .ok start ∧
    ((∃ names : Place, d.hasFile (start ++ names ++ [name]) = true ∧
      (∀ part ∈ names, part ∉ Convention.ignoredDirectories) ∧ p = root.descend (names ++ [name])) ∨
    d.hasFile start = true ∧ root.fileName?.getD root.text = name ∧ p = root)

/-- Above what is below a place there is a directory. -/
theorem hasDir_of_below {start : Place} {names : Place} {name : String} {n : Node}
    (there : d.root.at? (start ++ names ++ [name]) = some n) : d.hasDir start = true := by
  rw [List.append_assoc, Node.at?_append] at there
  obtain ⟨m, above, below⟩ := Option.bind_eq_some_iff.mp there
  rw [hasDir, above, Option.any_some]
  cases names with
  | nil => exact Node.isDir_of_at?_cons below
  | cons _ _ => exact Node.isDir_of_at?_cons below

theorem kindOf_eq_directory_iff {n : Node} : kindOf n = .directory ↔ n.isDir = true := by
  cases n <;> simp [kindOf, Node.isDir]

/-- The directories of a name are those that a root holds. -/
theorem mem_directoriesNamed_iff (wellFormed : d.WellFormed) {name : String} {p : Path} :
    p ∈ d.directoriesNamed root name ↔ d.HoldsDirectory root name p := by
  have listed : p ∈ d.directoriesNamed root name ↔
      ∃ e, (e ∈ d.walkable root ∧ 0 < e.depth) ∧ e.kind = .directory ∧ e.name = name ∧ e.path = p := by
    simp [directoriesNamed, and_assoc]
  rw [listed]
  constructor
  · rintro ⟨e, ⟨mem, below⟩, isDir, rfl, rfl⟩
    obtain ⟨notDash, start, located, begins⟩ := exists_start_of_mem_walkable mem below
    obtain ⟨entries, walk, walked⟩ := exists_walked wellFormed notDash located begins
    rw [walkable, walk] at mem
    obtain ⟨names, name, n, there, entered, kept, rfl⟩ := (walked.met_iff e).mp ⟨mem, below⟩
    have isDir := kindOf_eq_directory_iff.mp isDir
    refine ⟨notDash, start, names, located, by rw [hasDir, there, Option.any_some, isDir], ?_, rfl⟩
    intro part mem
    rcases List.mem_append.mp mem with before | last
    · exact entered part before
    · exact List.mem_singleton.mp last ▸ kept isDir
  · rintro ⟨notDash, start, names, located, isDir, entered, rfl⟩
    obtain ⟨es, there⟩ := hasDir_iff.mp isDir
    obtain ⟨entries, walk, walked⟩ := exists_walked wellFormed notDash located (hasDir_of_below there)
    rw [walkable, walk]
    refine ⟨_, (walked.met_iff _).mpr ⟨names, name, .dir es, there, ?_, ?_, rfl⟩, rfl, rfl, rfl⟩
    · exact fun part mem => entered part (List.mem_append_left _ mem)
    · exact fun _ => entered name (List.mem_append_right _ List.mem_cons_self)

/-- The files of a name are those that a root holds. -/
theorem mem_filesNamed_iff (wellFormed : d.WellFormed) {name : String} {p : Path} :
    p ∈ d.filesNamed root name ↔ d.HoldsFile root name p := by
  have listed : p ∈ d.filesNamed root name ↔
      ∃ e, (e ∈ d.walkable root ∧ e.kind = .file) ∧ e.name = name ∧ e.path = p := by
    simp [filesNamed, and_assoc]
  rw [listed]
  constructor
  · rintro ⟨e, ⟨mem, isFile⟩, rfl, rfl⟩
    by_cases first : e.depth = 0
    · obtain ⟨notDash, start, located, there, rfl⟩ := file_met_first_iff.mp ⟨⟨mem, isFile⟩, first⟩
      exact ⟨notDash, start, located, .inr ⟨there, rfl, rfl⟩⟩
    · obtain ⟨notDash, start, located, begins⟩ := exists_start_of_mem_walkable mem (Nat.pos_of_ne_zero first)
      obtain ⟨entries, walk, walked⟩ := exists_walked wellFormed notDash located begins
      rw [walkable, walk] at mem
      obtain ⟨names, name, there, entered, rfl⟩ := walked.file_met_iff.mp ⟨mem, isFile⟩
      exact ⟨notDash, start, located, .inl ⟨names, there, entered, rfl⟩⟩
  · rintro ⟨notDash, start, located, ⟨names, isFile, entered, rfl⟩ | ⟨isFile, rfl, rfl⟩⟩
    · obtain ⟨content, there⟩ := hasFile_iff.mp isFile
      obtain ⟨entries, walk, walked⟩ := exists_walked wellFormed notDash located (hasDir_of_below there)
      rw [walkable, walk]
      exact ⟨_, walked.file_met_iff.mpr ⟨names, name, isFile, entered, rfl⟩, rfl, rfl⟩
    · exact ⟨_, (file_met_first_iff.mpr ⟨notDash, start, located, isFile, rfl⟩).1, rfl, rfl⟩

/-- Where a file is, nothing is below. -/
theorem not_below_file {start names : Place} {name : String} (isFile : d.hasFile start = true)
    (below : d.hasFile (start ++ names ++ [name]) = true) : False := by
  obtain ⟨content, there⟩ := hasFile_iff.mp isFile
  obtain ⟨content', there'⟩ := hasFile_iff.mp below
  have isDir := hasDir_of_below there'
  rw [hasDir, there] at isDir
  cases isDir

/-- The directories of a name are spelled in one way each. -/
theorem spelledOnce_directoriesNamed (wellFormed : d.WellFormed) {name : String} :
    Path.SpelledOnce (d.directoriesNamed root name) := by
  have named {start names : Place} (isDir : d.hasDir (start ++ names ++ [name]) = true) :
      Place.Named (names ++ [name]) := by
    obtain ⟨es, there⟩ := hasDir_iff.mp isDir
    rw [List.append_assoc] at there
    exact fun part mem => Place.named_of_at? wellFormed there part (List.mem_append_right _ mem)
  intro p mem q mem' same
  obtain ⟨-, start, names, located, isDir, -, rfl⟩ := (mem_directoriesNamed_iff wellFormed).mp mem
  obtain ⟨-, start', names', -, isDir', -, rfl⟩ := (mem_directoriesNamed_iff wellFormed).mp mem'
  rw [Path.descend_inj (locate_iff.mp located).1 (named isDir) (named isDir') same]

/-- The files of a name are spelled in one way each. -/
theorem spelledOnce_filesNamed (wellFormed : d.WellFormed) {name : String} :
    Path.SpelledOnce (d.filesNamed root name) := by
  intro p mem q mem' same
  obtain ⟨-, start, located, holds⟩ := (mem_filesNamed_iff wellFormed).mp mem
  obtain ⟨-, start', located', holds'⟩ := (mem_filesNamed_iff wellFormed).mp mem'
  cases located.symm.trans located'
  rcases holds with ⟨names, isFile, -, rfl⟩ | ⟨isFile, -, rfl⟩
  · rcases holds' with ⟨names', isFile', -, rfl⟩ | ⟨isFile', -, rfl⟩
    · have named := named_below wellFormed isFile
      rw [Path.descend_inj (locate_iff.mp located).1 named (named_below wellFormed isFile') same]
    · exact (not_below_file isFile' isFile).elim
  · rcases holds' with ⟨names', isFile', -, rfl⟩ | ⟨-, -, rfl⟩
    · exact (not_below_file isFile isFile').elim
    · rfl

/-! ## What is taken -/

/-- The conventions are tried one after the other. -/
theorem findSome?_compilerConfigs (f : String → Option Path) : Convention.compilerConfigs.findSome? f =
    (f "tsconfig.json").or (f "jsconfig.json") := by
  cases first : f "tsconfig.json" <;> cases second : f "jsconfig.json" <;>
    simp [Convention.compilerConfigs, first, second]

/-- The routing directory is the shallowest directory of its name. -/
theorem findRoutingRoot_eq_ok_iff (wellFormed : d.WellFormed) {name : String} {p : Path} :
    Project.findRoutingRoot d root name = .ok p ↔ d.HoldsDirectory root name p ∧
      ∀ q, d.HoldsDirectory root name q → q ≠ p → Path.Shallower p q := by
  have first : Project.findRoutingRoot d root name = .ok p ↔
      Path.shallowest? (d.directoriesNamed root name) = some p := by
    rw [Project.findRoutingRoot]
    cases Path.shallowest? (d.directoriesNamed root name) <;> simp
  rw [first, Path.shallowest?_eq_some_iff (spelledOnce_directoriesNamed wellFormed)]
  simp only [mem_directoriesNamed_iff wellFormed]

/-- The configuration is the shallowest file of its first name, or else of its second. -/
theorem configuration?_eq_some_iff (wellFormed : d.WellFormed) {p : Path} :
    d.configuration? root = some p ↔ ∃ file,
      (file = "tsconfig.json" ∨ file = "jsconfig.json" ∧ ∀ q, ¬d.HoldsFile root "tsconfig.json" q) ∧
        d.HoldsFile root file p ∧ ∀ q, d.HoldsFile root file q → q ≠ p → Path.Shallower p q := by
  have taken {file : String} : Path.shallowest? (d.filesNamed root file) = some p ↔
      d.HoldsFile root file p ∧ ∀ q, d.HoldsFile root file q → q ≠ p → Path.Shallower p q := by
    rw [Path.shallowest?_eq_some_iff (spelledOnce_filesNamed wellFormed)]
    simp only [mem_filesNamed_iff wellFormed]
  have absent {file : String} : Path.shallowest? (d.filesNamed root file) = none ↔
      ∀ q, ¬d.HoldsFile root file q := by
    rw [Path.shallowest?_eq_none_iff, List.eq_nil_iff_forall_not_mem]
    simp only [mem_filesNamed_iff wellFormed]
  rw [configuration?, findSome?_compilerConfigs, Option.or_eq_some_iff, taken, taken, absent]
  constructor
  · rintro (first | ⟨none, second⟩)
    · exact ⟨_, .inl rfl, first⟩
    · exact ⟨_, .inr ⟨rfl, none⟩, second⟩
  · rintro ⟨file, rfl | ⟨rfl, none⟩, holds⟩
    · exact .inl holds
    · exact .inr ⟨none, holds⟩

/-- Both are the same on disks that differ in how directories list what they hold. -/
theorem Relisted.findRoutingRoot_eq {d' : Disk} (same : d.Relisted d') (wellFormed : d.WellFormed)
    (wellFormed' : d'.WellFormed) (name : String) :
    Project.findRoutingRoot d' root name = Project.findRoutingRoot d root name := by
  rw [Project.findRoutingRoot, Project.findRoutingRoot,
    Path.shallowest?_congr (spelledOnce_directoriesNamed wellFormed)]
  intro p
  rw [mem_directoriesNamed_iff wellFormed', mem_directoriesNamed_iff wellFormed]
  simp only [HoldsDirectory, same.locate_eq, same.hasDir_eq]

/-- Listing a disk in another order leaves the configuration. -/
theorem Relisted.configuration?_eq {d' : Disk} (same : d.Relisted d') (wellFormed : d.WellFormed)
    (wellFormed' : d'.WellFormed) : d'.configuration? root = d.configuration? root := by
  apply Option.ext
  intro p
  rw [configuration?_eq_some_iff wellFormed', configuration?_eq_some_iff wellFormed]
  simp only [HoldsFile, same.locate_eq, same.hasFile_eq]

/-- The configuration is found without reading any file. -/
theorem configuration?_emptied (d : Disk) (root : Path) : d.emptied.configuration? root = d.configuration? root := by
  have named (name : String) : d.emptied.filesNamed root name = d.filesNamed root name := by
    rw [filesNamed, filesNamed, walkable, walkable, walk_emptied]
  simp only [configuration?, named]

end Disk

/-- The aliases that a configuration file declares. -/
def AliasMap.ofFile (d : Disk) (file : Path) : AliasMap :=
  match d.readText file with
  | .error _ => empty
  | .ok text =>
    match Json.ofConfiguration? text with
    | none => empty
    | some config => ofConfiguration (file.parent?.getD ⟨"."⟩) config

/-- The aliases of a project are those of its configuration. -/
theorem AliasMap.ofDisk_eq (d : Disk) (root : Path) :
    ofDisk d root = ((d.configuration? root).map (ofFile d)).getD empty := by
  rw [ofDisk]
  cases d.configuration? root <;> rfl

namespace Disk

/-- What a project takes for its routing directory and for its compiler configuration. A routing directory is
found if and only if there is a directory of the name below the root, no link, that is not left out nor within one
that is; then the one with the fewest components is found, of those with as many the first. The configuration that
aliases are read from is, in the same way, the shallowest of the regular files of its first name, and of its second
name only if there is none of the first. Neither depends on the order in which directories list what they hold. -/
theorem shallowest_found {d : Disk} (wellFormed : d.WellFormed) (root : Path) (name : String) :
    ((∃ p, Project.findRoutingRoot d root name = .ok p) ↔ ∃ p, d.HoldsDirectory root name p) ∧
    (∀ p, Project.findRoutingRoot d root name = .ok p ↔ d.HoldsDirectory root name p ∧
      ∀ q, d.HoldsDirectory root name q → q ≠ p → Path.Shallower p q) ∧
    (∀ p, d.configuration? root = some p ↔ ∃ file,
      (file = "tsconfig.json" ∨ file = "jsconfig.json" ∧ ∀ q, ¬d.HoldsFile root "tsconfig.json" q) ∧
        d.HoldsFile root file p ∧ ∀ q, d.HoldsFile root file q → q ≠ p → Path.Shallower p q) ∧
    (∀ p, d.configuration? root = some p → AliasMap.ofDisk d root = AliasMap.ofFile d p) ∧
    ((∀ p, d.configuration? root ≠ some p) → AliasMap.ofDisk d root = AliasMap.empty) ∧
    ∀ d', d'.WellFormed → d.Relisted d' →
      Project.findRoutingRoot d' root name = Project.findRoutingRoot d root name ∧
        d'.configuration? root = d.configuration? root := by
  refine ⟨⟨?_, ?_⟩, fun p => findRoutingRoot_eq_ok_iff wellFormed,
    fun p => configuration?_eq_some_iff wellFormed, fun p taken => ?_, fun none => ?_,
    fun d' wellFormed' same => ⟨same.findRoutingRoot_eq wellFormed wellFormed' name,
      same.configuration?_eq wellFormed wellFormed'⟩⟩
  · rintro ⟨p, ok⟩
    exact ⟨p, ((findRoutingRoot_eq_ok_iff wellFormed).mp ok).1⟩
  · rintro ⟨q, holds⟩
    have mem := (mem_directoriesNamed_iff wellFormed).mpr holds
    rw [Project.findRoutingRoot]
    cases shallowest : Path.shallowest? (d.directoriesNamed root name) with
    | none => simp [Path.shallowest?_eq_none_iff.mp shallowest] at mem
    | some p => exact ⟨p, rfl⟩
  · rw [AliasMap.ofDisk_eq, taken]
    rfl
  · rw [AliasMap.ofDisk_eq, Option.eq_none_iff_forall_ne_some.mpr none]
    rfl

/-- Two routing directories of one depth, one that is left out, a file and a link of the name; a configuration of
the first name that lies deeper than one of the second. -/
def crowded : Disk := ⟨.dir [("p", .dir [("src", .dir [("app", .dir [])]), ("app", .link "src/app"),
  ("lib", .dir [("app", .dir []), ("tsconfig.json", .file .empty)]), ("jsconfig.json", .file .empty),
  (".git", .dir [("app", .dir [])]), ("src2", .dir [("app", .file .empty)])])], []⟩

/-- The crowded disk is well formed. -/
theorem wellFormed_crowded : crowded.WellFormed := ⟨rfl, by decide⟩

/-- What a walk of the crowded disk goes through. -/
theorem walk_crowded : crowded.walk ⟨"/p"⟩ = .ok (walkNode ⟨"/p"⟩ "p" 0 (.dir
    [("src", .dir [("app", .dir [])]), ("app", .link "src/app"),
      ("lib", .dir [("app", .dir []), ("tsconfig.json", .file .empty)]), ("jsconfig.json", .file .empty),
      (".git", .dir [("app", .dir [])]), ("src2", .dir [("app", .file .empty)])])) := by
  have there : crowded.root.at? ["p"] = some (.dir _) := rfl
  have spelled : Place.toPath ["p"] = ⟨"/p"⟩ := by decide
  have walked := walk_toPath wellFormed_crowded there
  rw [spelled] at walked
  exact walked

/-- The directory in `lib` is found, since it comes first, and the configuration beside it is taken. -/
theorem shallowest_found_crowded :
    Project.findRoutingRoot crowded ⟨"/p"⟩ "app" = .ok ⟨"/p/lib/app"⟩ ∧
      crowded.configuration? ⟨"/p"⟩ = some ⟨"/p/lib/tsconfig.json"⟩ ∧
      ¬∃ p, Project.findRoutingRoot crowded ⟨"/p"⟩ ".git" = .ok p := by
  have directories : crowded.directoriesNamed ⟨"/p"⟩ "app" = [⟨"/p/src/app"⟩, ⟨"/p/lib/app"⟩] := by
    rw [directoriesNamed, walkable, walk_crowded]
    decide
  have files : crowded.filesNamed ⟨"/p"⟩ "tsconfig.json" = [⟨"/p/lib/tsconfig.json"⟩] := by
    rw [filesNamed, walkable, walk_crowded]
    decide
  have none : crowded.directoriesNamed ⟨"/p"⟩ ".git" = [] := by
    rw [directoriesNamed, walkable, walk_crowded]
    decide
  obtain ⟨-, found, taken, -⟩ := shallowest_found wellFormed_crowded ⟨"/p"⟩ "app"
  obtain ⟨exists_, -⟩ := shallowest_found wellFormed_crowded ⟨"/p"⟩ ".git"
  refine ⟨(found _).mpr ?_, (taken _).mpr ⟨_, .inl rfl, ?_⟩, fun ok => ?_⟩
  · simp only [← mem_directoriesNamed_iff wellFormed_crowded, directories]
    decide
  · simp only [← mem_filesNamed_iff wellFormed_crowded, files]
    decide
  · obtain ⟨p, holds⟩ := exists_.mp ok
    rw [← mem_directoriesNamed_iff wellFormed_crowded, none] at holds
    cases holds

end Disk

end RouteTrees
