import RouteTrees.Disk.Basic

/-!
# Finding what a path means

A path is followed segment by segment. A link on the way is replaced by the segments of its target, no
more than forty times. Everything that reads or asks goes through `Disk.locate`, so a path has one
meaning for all of them.

Names are refused beyond their longest length, and so are links beyond their number. The length of a whole
path is not limited: a project is taken to be no deeper than its paths can be spelled.
-/

namespace RouteTrees.Disk

/-- How many links are followed on one way. -/
def linkLimit : Nat := 40

/-- How many bytes a name may have. -/
def nameLimit : Nat := 255

/-- Where a path leads. -/
inductive Spot where
  /-- To a place where something is. -/
  | found (place : Place)
  /-- To a name that is not in its directory; `slashed` if it was to be a directory. -/
  | absent (place : Place) (slashed : Bool)
deriving DecidableEq, Repr

/-- Follows segments from a place. A link at the end is followed if asked for, or if a slash is behind
it. -/
def follow (root : Node) (final : Bool) (budget : Nat) (place : Place) (pending : List String) :
    Except Failure Spot :=
  match pending with
  | [] => .ok (.found place)
  | s :: rest =>
    match root.at? place with
    | some (.dir entries) =>
      if Path.isIdle s then follow root final budget place rest
      else if s = ".." then follow root final budget place.dropLast rest
      else if s.utf8ByteSize > nameLimit then .error .nameTooLong
      else match entries.lookup s with
        | none =>
          if rest.all Path.isIdle then .ok (.absent (place ++ [s]) !rest.isEmpty)
          else .error .missing
        | some (.link target) =>
          if rest.isEmpty && !final then .ok (.found (place ++ [s]))
          else match budget with
            | 0 => .error .tooManyLinks
            | budget + 1 =>
              let t : Path := ⟨target⟩
              if target = "" then .error .missing
              else follow root final budget (if t.isAbsolute then [] else place)
                (t.segments ++ rest)
        | some _ => follow root final budget (place ++ [s]) rest
    | some _ => .error .notDirectory
    | none => .error .missing
termination_by (budget, pending.length)

/-- Where a path leads; `final` if a link at its end is followed. -/
def spot (d : Disk) (final : Bool) (p : Path) : Except Failure Spot :=
  if p.text = "" then .error .missing
  else if p.text.toList.contains '\x00' then .error .endsEarly
  else follow d.root final linkLimit (if p.isAbsolute then [] else d.current) p.segments

/-- The place that a path leads to. A link at its end is followed if it is `final`. -/
def locate (d : Disk) (final : Bool) (p : Path) : Except Failure Place :=
  match d.spot final p with
  | .ok (.found place) => .ok place
  | .ok (.absent ..) => .error .missing
  | .error e => .error e

/-- What is at the place that a path leads to. -/
def node? (d : Disk) (final : Bool) (p : Path) : Option Node :=
  match d.locate final p with
  | .ok place => d.root.at? place
  | .error _ => none

/-- Whether a path leads to a file, through links if need be. -/
def isFile (d : Disk) (p : Path) : Bool := (d.node? true p).any Node.isFile

/-- A path leads to a file if it means the place of one. -/
theorem isFile_iff {d : Disk} {p : Path} : d.isFile p = true ↔
    ∃ place content, d.locate true p = .ok place ∧ d.root.at? place = some (.file content) := by
  unfold isFile node?
  cases located : d.locate true p with
  | error e => simp
  | ok place =>
    cases found : d.root.at? place with
    | none => simp [found]
    | some n => cases n <;> simp [found, Node.isFile]

/-- Whether a path leads to a directory, through links if need be. -/
def isDir (d : Disk) (p : Path) : Bool := (d.node? true p).any Node.isDir

/-- The path without links and dots that leads to the same place, or the path itself if it leads
nowhere. -/
def canonical (d : Disk) (p : Path) : Path :=
  match d.locate true p with
  | .ok place => place.toPath
  | .error _ => p

/-- A path that leads somewhere is called by the place it leads to. -/
theorem canonical_of_locate {d : Disk} {p : Path} {place : Place}
    (located : d.locate true p = .ok place) : d.canonical p = place.toPath := by
  rw [canonical, located]

/-- The content of the file that a path leads to. -/
def read (d : Disk) (p : Path) : Except Failure ByteArray :=
  match d.locate true p with
  | .error e => .error e
  | .ok place =>
    match d.root.at? place with
    | some (.file content) => .ok content
    | some (.dir _) => .error .isDirectory
    | _ => .error .missing

/-- The same as text. -/
def readText (d : Disk) (p : Path) : Except Failure String :=
  match d.read p with
  | .error e => .error e
  | .ok content =>
    match String.fromUTF8? content with
    | some s => .ok s
    | none => .error .notText

/-- The disk with something else at a place. -/
def put (d : Disk) (node : Node) (place : Place) : Disk := { d with root := d.root.put place node }

/-- Writes a file, which is made if only its name is missing. -/
def write (d : Disk) (p : Path) (content : ByteArray) : Except Failure Disk :=
  match d.spot true p with
  | .error e => .error e
  | .ok (.absent place slashed) =>
    if slashed then .error .isDirectory else .ok (d.put (.file content) place)
  | .ok (.found place) =>
    match d.root.at? place with
    | some (.dir _) => .error .isDirectory
    | _ => .ok (d.put (.file content) place)

/-- Takes away what is at a path; a link, not what it leads to. -/
def remove (d : Disk) (p : Path) : Disk :=
  match d.locate false p with
  | .ok place => { d with root := d.root.remove place }
  | .error _ => d

end RouteTrees.Disk
