import RouteTrees.Project.Basic

/-!
# Settings

What a user may say about the project to be analysed, and the project once it has been found. The root
that was given is used up by looking for the project and comes back, without links, only when that
succeeds.
-/

namespace RouteTrees

/-- What a user may say about a project. -/
structure Settings where
  /-- The directory of the project, if it is not the current one. -/
  root : Option Path := none
  framework : String := "next"
  /-- The name of the routing directory. -/
  routingName : String := "app"
  project : Option Project := none

namespace Settings

/-- What is answered while no project has been found. -/
def notLoaded : String := "Config not initialized - call initialize() first"

/-- The project, if one has been found. -/
def project? (s : Settings) : Except String Project :=
  match s.project with
  | some p => .ok p
  | none => .error notLoaded

/-- The directory that is probed: the given root, or else the current directory, without links. -/
def directory (d : Disk) (s : Settings) : Path := d.canonical (s.root.getD d.current.toPath)

/-- Looks for the project, and answers why there is none, if so. -/
def load (d : Disk) (s : Settings) : Option ProbeError × Settings :=
  match Project.probe d (s.directory d) s.framework s.routingName with
  | .ok p => (none, { s with root := some (s.directory d), project := some p })
  | .error e => (some e, { s with root := none })

end Settings

end RouteTrees
