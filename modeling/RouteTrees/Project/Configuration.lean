import RouteTrees.Disk.Walk
import RouteTrees.Json.Relaxed
import RouteTrees.Project.Alias

/-!
# The compiler's configuration

Where the configuration of a project is, and the aliases that it declares. Of several files of one name
the one with the shortest way to it counts; the second name is looked for only if there is no file of the
first. A project whose configuration cannot be read has no aliases.
-/

namespace RouteTrees

namespace Path

/-- Whether a path has fewer components than another, or as many and stands before it. -/
def shallower (p q : Path) : Bool :=
  p.components.length < q.components.length ||
    p.components.length = q.components.length && p.compare q = .lt

/-- The shallowest of some paths, the first of equals. -/
def shallowest? : List Path → Option Path
  | [] => none
  | p :: rest =>
    match shallowest? rest with
    | none => some p
    | some q => if shallower q p then some q else some p

end Path

namespace Disk

/-- The files of a name at or below a directory. -/
def filesNamed (d : Disk) (root : Path) (name : String) : List Path :=
  ((d.walkable root).filter fun e => e.kind = .file && e.name = name).map (·.path)

/-- The configuration of a project: the least deep file of the first name that any file has. -/
def configuration? (d : Disk) (root : Path) : Option Path :=
  Convention.compilerConfigs.findSome? fun name => Path.shallowest? (d.filesNamed root name)

end Disk

namespace Json

/-- The value of a configuration: plain JSON, or else relaxed. -/
def ofConfiguration? (text : String) : Option Json :=
  match ofText text with
  | .ok v => some v
  | .error _ =>
    match Relaxed.ofText text with
    | .ok v => some v
    | .error _ => none

end Json

namespace AliasMap

/-- The first of an alias's targets, if it is a text. -/
def firstTarget? (targets : Json) : Option String := targets.items?.bind fun ts => ts.head?.bind Json.text?

/-- The aliases that the fields of an object declare; targets are read from a directory on. What is
declared otherwise is left out. -/
def declared (base : Path) (fields : List (String × Json)) : List Alias :=
  fields.filterMap fun (pattern, targets) =>
    (firstTarget? targets).map fun target => ⟨pattern, (base.join ⟨withoutStar target⟩).clean⟩

/-- The aliases that a configuration in a directory declares. -/
def ofConfiguration (directory : Path) (config : Json) : AliasMap :=
  match config.field? "compilerOptions" with
  | none => empty
  | some options =>
    let base := ((options.field? "baseUrl").bind Json.text?).getD "."
    let fields := ((options.field? "paths").bind Json.fields?).getD []
    ofList (declared (directory.join ⟨base⟩) fields)

/-- The aliases of the project at a root; none if it has no configuration that can be read. -/
def ofDisk (d : Disk) (root : Path) : AliasMap :=
  match d.configuration? root with
  | none => empty
  | some file =>
    match d.readText file with
    | .error _ => empty
    | .ok text =>
      match Json.ofConfiguration? text with
      | none => empty
      | some config => ofConfiguration (file.parent?.getD ⟨"."⟩) config

end AliasMap

end RouteTrees
