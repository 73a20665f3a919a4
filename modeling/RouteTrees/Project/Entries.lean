import RouteTrees.Disk.Walk
import RouteTrees.Project.Route

/-!
# The routes of a directory

Each directory at or below the routing root that holds an entry file defines a route, named after the way
to it.
-/

namespace RouteTrees.RouteSet

/-- Puts what was met on a walk into a set of routes, if it is an entry file. -/
def insertEntry (d : Disk) (routingRoot : Path) (s : RouteSet) (e : Disk.Entry) : RouteSet :=
  if e.kind = .file && Route.isEntry e.path then
    match e.path.stripBase? routingRoot with
    | some relative => s.insert (Route.ofEntry relative) (d.canonical e.path)
    | none => s
  else s

/-- The routes below a routing root, by a walk that does not enter the ignored directories. -/
def ofDisk (d : Disk) (routingRoot : Path) : Except Disk.WalkError RouteSet :=
  (d.walk routingRoot).map fun entries => entries.foldl (insertEntry d routingRoot) empty

end RouteTrees.RouteSet
