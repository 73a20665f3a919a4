import RouteTrees.Disk.Locate
import RouteTrees.Project.Convention

/-!
# Walking through a project

All that is below a directory, except in directories that hold nothing of the project's own. Links are
met but not followed; only what the walk begins with may itself be reached by one, and may bear any name.
A dash is no path to the walk but the standard input, which is met alone.
-/

namespace RouteTrees.Disk

/-- What kind of thing was met. -/
inductive EntryKind where
  | directory
  | file
  | other
deriving DecidableEq, Repr

/-- Something that was met on a walk. -/
structure Entry where
  path : Path
  name : String
  kind : EntryKind
  /-- How many directories below the start it is. -/
  depth : Nat
deriving Repr

/-- What a node counts as when it is met below the start: a link counts as itself. -/
def kindOf : Node → EntryKind
  | .dir _ => .directory
  | .file _ => .file
  | .link _ => .other

/-- Whether a directory is left out. -/
def isIgnored (name : String) (n : Node) : Bool :=
  n.isDir && Convention.ignoredDirectories.contains name

mutual

/-- What is met at a node of a name, and below it. -/
def walkNode (path : Path) (name : String) (depth : Nat) : Node → List Entry
  | .dir entries => ⟨path, name, .directory, depth⟩ :: walkEntries path (depth + 1) entries
  | n => [⟨path, name, kindOf n, depth⟩]

/-- What is met at the entries of a directory, and below them. -/
def walkEntries (parent : Path) (depth : Nat) : List (String × Node) → List Entry
  | [] => []
  | (name, n) :: rest =>
    (if isIgnored name n then [] else walkNode (parent.join ⟨name⟩) name depth n) ++
      walkEntries parent depth rest

end

/-- Why a walk cannot begin. -/
structure WalkError where
  path : Path
  failure : Failure
deriving DecidableEq, Repr

/-- What is said of a walk that cannot begin. -/
def WalkError.message (e : WalkError) : String :=
  e.path.text ++ ": IO error for operation on " ++ e.path.text ++ ": " ++ e.failure.message

/-- Whether a walk takes a path for the standard input. A dash with a directory before it is a name. -/
def isInput (start : Path) : Bool := start.same ⟨"-"⟩

/-- What is met of the standard input. -/
def input : Entry := ⟨⟨"<stdin>"⟩, "<stdin>", .other, 0⟩

/-- All that is met on a walk from a path on. A link that leads to a directory is met as a link, and the
walk goes on behind it; one that leads to a file is met as that file. -/
def walk (d : Disk) (start : Path) : Except WalkError (List Entry) :=
  let name := start.fileName?.getD start.text
  if isInput start then .ok [input]
  else match d.locate false start with
  | .error e => .error ⟨start, e⟩
  | .ok place =>
    match d.root.at? place with
    | some (.link _) =>
      match d.locate true start with
      | .error e => .error ⟨start, e⟩
      | .ok behind =>
        match d.root.at? behind with
        | some (.dir entries) => .ok (⟨start, name, .other, 0⟩ :: walkEntries start 1 entries)
        | some (.file _) => .ok [⟨start, name, .file, 0⟩]
        | _ => .ok [⟨start, name, .other, 0⟩]
    | some n => .ok (walkNode start name 0 n)
    | none => .error ⟨start, .missing⟩

/-- All that is met on a walk, or nothing if it cannot begin. -/
def walkable (d : Disk) (start : Path) : List Entry :=
  match d.walk start with
  | .ok entries => entries
  | .error _ => []

end RouteTrees.Disk
