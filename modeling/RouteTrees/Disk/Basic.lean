import RouteTrees.Path.Basic

/-!
# Files and directories

A file system as a value: directories hold named nodes, and a link holds the text of the path it stands
for. A `Place` is a list of names from the root, with no link and no dot among them.
-/

namespace RouteTrees

/-- Names from the root. -/
abbrev Place := List String

/-- A file, a link or a directory with what it holds. -/
inductive Node where
  | file (content : ByteArray)
  | link (target : String)
  | dir (entries : List (String × Node))

namespace Node

/-- What a directory holds under a name. -/
def child? : Node → String → Option Node
  | dir entries, name => entries.lookup name
  | _, _ => none

/-- What is at some names below a node; links are not followed. -/
def at? : Node → List String → Option Node
  | n, [] => some n
  | n, name :: rest =>
    match n.child? name with
    | some c => c.at? rest
    | none => none

def isDir : Node → Bool
  | dir _ => true
  | _ => false

def isFile : Node → Bool
  | file _ => true
  | _ => false

/-- The entries with one of them changed, which is put at the end if it is new. -/
def setEntry (name : String) (node : Node) : List (String × Node) → List (String × Node)
  | [] => [(name, node)]
  | (k, n) :: rest =>
    if k = name then (k, node) :: rest else (k, n) :: setEntry name node rest

/-- What a directory holds, in the order in which it is listed. -/
def entries : Node → List (String × Node)
  | dir es => es
  | _ => []

/-- Puts a node at some names below a directory. Missing directories on the way are made. -/
def put (n : Node) : List String → Node → Node
  | [], node => node
  | name :: rest, node =>
    dir (setEntry name (((n.child? name).getD (dir [])).put rest node) n.entries)

/-- Takes away what is at some names below a directory. -/
def remove (n : Node) : List String → Node
  | [] => n
  | [name] => if (n.child? name).isSome then dir (n.entries.filter fun e => e.1 ≠ name) else n
  | name :: rest =>
    match n.child? name with
    | some c => dir (setEntry name (c.remove rest) n.entries)
    | none => n

mutual

/-- The places of the files at or below a node, seen from there. -/
def files : Node → List Place
  | file _ => [[]]
  | link _ => []
  | dir es => filesAll es

/-- The places of the files at or below some entries. -/
def filesAll : List (String × Node) → List Place
  | [] => []
  | (name, n) :: rest => n.files.map (name :: ·) ++ filesAll rest

end

mutual

/-- What the links at or below a node stand for; a link that stands for nothing is passed over. -/
def targets : Node → List String
  | file _ => []
  | link target => if target = "" then [] else [target]
  | dir es => targetsAll es

/-- What the links at or below some entries stand for. -/
def targetsAll : List (String × Node) → List String
  | [] => []
  | (_, n) :: rest => n.targets ++ targetsAll rest

end

/-- The files of an entry that is found by its name are among those of all entries. -/
theorem mem_filesAll {es : List (String × Node)} {name : String} {c : Node} {place : Place}
    (found : es.lookup name = some c) (mem : place ∈ c.files) : name :: place ∈ filesAll es := by
  induction es with
  | nil => cases found
  | cons e rest ih =>
    obtain ⟨key, n⟩ := e
    rw [List.lookup_cons] at found
    rw [filesAll]
    split at found
    · next same =>
      cases found
      cases eq_of_beq same
      exact List.mem_append_left _ (List.mem_map_of_mem mem)
    · exact List.mem_append_right _ (ih found)

/-- A place that holds a file is among those of all files. -/
theorem mem_files_of_at? {n : Node} {place : Place} {content : ByteArray}
    (found : n.at? place = some (file content)) : place ∈ n.files := by
  induction place generalizing n with
  | nil =>
    cases found
    exact List.mem_singleton_self _
  | cons name rest ih =>
    rw [at?] at found
    split at found
    · next c child =>
      cases n with
      | dir es => exact mem_filesAll child (ih found)
      | file _ => cases child
      | link _ => cases child
    · cases found

end Node

/-- The absolute path of a place. -/
def Place.toPath (p : Place) : Path := ⟨"/" ++ "/".intercalate p⟩

/-- A file system, and the directory where relative paths begin. -/
structure Disk where
  root : Node
  current : Place

/-- Why something cannot be done with a path. -/
inductive Disk.Failure where
  | missing
  | notDirectory
  | isDirectory
  | nameTooLong
  | tooManyLinks
  /-- The path holds the character that ends paths. -/
  | endsEarly
  | notText
deriving DecidableEq, Repr

/-- How the system puts it. -/
def Disk.Failure.message : Disk.Failure → String
  | .missing => "No such file or directory (os error 2)"
  | .notDirectory => "Not a directory (os error 20)"
  | .isDirectory => "Is a directory (os error 21)"
  | .nameTooLong => "File name too long (os error 36)"
  | .tooManyLinks => "Too many levels of symbolic links (os error 40)"
  | .endsEarly => "file name contained an unexpected NUL byte"
  | .notText => "stream did not contain valid UTF-8"

end RouteTrees
