import RouteTrees.Project.Configuration

/-!
# Projects

A project is a directory whose manifest declares the framework and that holds a routing directory. All
that the analysis has to know about it is found out once.
-/

namespace RouteTrees

/-- Why a directory is no project. -/
inductive ProbeError where
  /-- It has no manifest that can be read. -/
  | noManifest (root : Path)
  /-- Its manifest does not declare the framework. -/
  | notDeclared (package : String)
  /-- It has no routing directory. -/
  | noRoutingRoot (name : String) (root : Path)
deriving DecidableEq, Repr

/-- What is said of a project that was not found. -/
def ProbeError.message : ProbeError → String
  | noManifest root => "Could not find package.json in " ++ root.text
  | notDeclared package => "Not a " ++ package ++ " project: " ++ package ++ " is not a dependency"
  | noRoutingRoot name root => "Could not find an '" ++ name ++ "' directory in " ++ root.text

/-- What the analysis has to know about a project. -/
structure Project where
  root : Path
  routingRoot : Path
  aliases : AliasMap

namespace Disk

/-- The manifest at a root, if there is one that can be read. -/
def manifest? (d : Disk) (root : Path) : Option Json :=
  match d.readText (root.join ⟨"package.json"⟩) with
  | .error _ => none
  | .ok text => (Json.ofText text).toOption

/-- The directories of a name below a root, as they are listed. -/
def directoriesNamed (d : Disk) (root : Path) (name : String) : List Path :=
  ((d.walkable root).filter fun e => 0 < e.depth && e.kind = .directory && e.name = name).map (·.path)

end Disk

namespace Project

/-- Whether a manifest declares a package, for use or for development. -/
def declares (manifest : Json) (package : String) : Bool :=
  ["dependencies", "devDependencies"].any fun group =>
    (manifest.field? group).any fun packages => (packages.field? package).any fun v => !v.isNull

/-- Makes sure that the project in a directory declares a package. -/
def checkFramework (d : Disk) (root : Path) (package : String) : Except ProbeError Unit :=
  match d.manifest? root with
  | none => .error (.noManifest root)
  | some manifest => if declares manifest package then .ok () else .error (.notDeclared package)

/-- The routing directory of a project: the one of its name with the shortest way to it. -/
def findRoutingRoot (d : Disk) (root : Path) (name : String) : Except ProbeError Path :=
  match Path.shallowest? (d.directoriesNamed root name) with
  | some p => .ok p
  | none => .error (.noRoutingRoot name root)

/-- Finds the project at a root: its manifest has to declare the framework, and a directory of the routing name
has to be there. -/
def probe (d : Disk) (root : Path) (framework routingName : String) : Except ProbeError Project := do
  checkFramework d root framework
  let routingRoot ← findRoutingRoot d root routingName
  pure ⟨root, routingRoot, AliasMap.ofDisk d root⟩

end Project

end RouteTrees
