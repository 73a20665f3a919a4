import RouteTrees.Path.Basic
import RouteTrees.Project.Convention

/-!
# The index of source files

All source files of a project, for finding one by the end of its path. Of several files that end alike
the shortest path wins, and of those of one length the first.
-/

namespace RouteTrees

namespace Path

/-- Whether a path has the extension of a source file. -/
def isSource (p : Path) : Bool :=
  match p.extension? with
  | some e => Convention.sourceExtensions.contains e
  | none => false

/-- Whether a path is not behind another in the order of paths. -/
def atMost (p q : Path) : Bool := p.compare q ≠ .gt

/-- Drops every path that says the same as the one before it. -/
def dropRepeats : List Path → List Path
  | [] => []
  | p :: rest =>
    match dropRepeats rest with
    | [] => [p]
    | q :: kept => if p.same q then p :: kept else p :: q :: kept

/-- Paths in ascending order, each once. -/
def sortUnique (paths : List Path) : List Path := dropRepeats (paths.mergeSort atMost)

end Path

/-- The source files of a project, in the order of paths. -/
structure FileIndex where
  files : List Path
deriving Repr

namespace FileIndex

/-- The index of a project without source files. -/
def empty : FileIndex := ⟨[]⟩

/-- The index of some files, given what each is called in full. -/
def ofFiles (canonical : Path → Path) (files : List Path) : FileIndex :=
  ⟨Path.sortUnique (files.map canonical)⟩

/-- The number of indexed files. -/
def size (index : FileIndex) : Nat := index.files.length

/-- Whether the last components of a path are given names. -/
def endsWith (p : Path) (wanted : List String) : Bool :=
  (wanted.map Path.Component.name).isSuffixOf p.components

/-- Whether a file is the better answer: its path is shorter, or as long and before the other. -/
def better (p q : Path) : Bool :=
  p.byteLength < q.byteLength || p.byteLength = q.byteLength && p.compare q = .lt

/-- The best of some files, the first of equals. -/
def best? : List Path → Option Path
  | [] => none
  | p :: rest =>
    match best? rest with
    | none => some p
    | some q => if better q p then some q else some p

/-- The best of some files is one of them. -/
theorem mem_of_best? {files : List Path} {p : Path} (best : best? files = some p) : p ∈ files := by
  induction files with
  | nil => cases best
  | cons q rest ih =>
    rw [best?] at best
    cases found : best? rest with
    | none =>
      simp only [found, Option.some.injEq] at best
      exact best ▸ List.mem_cons_self
    | some r =>
      simp only [found] at best
      split at best
      · exact List.mem_cons_of_mem _ (ih (found.trans best))
      · cases best
        exact List.mem_cons_self

/-- The file whose path without extension ends with the names in a suffix. -/
def find? (index : FileIndex) (suffix : String) : Option Path :=
  let wanted := (Path.mk suffix).names
  if wanted.isEmpty then none
  else best? (index.files.filter fun f => endsWith f.withoutExtension wanted)

/-- What is found in an index is one of its files. -/
theorem mem_of_find? {index : FileIndex} {suffix : String} {p : Path}
    (found : index.find? suffix = some p) : p ∈ index.files := by
  simp only [find?] at found
  split at found
  · cases found
  · exact (List.mem_filter.mp (mem_of_best? found)).1

end FileIndex

end RouteTrees
