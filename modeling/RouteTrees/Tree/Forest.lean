import RouteTrees.Project.Entries
import RouteTrees.Tree.Growth

/-!
# The trees of a project

The routes of a project, each with its tree or the reason why it has none. The builds share what they
read.
-/

namespace RouteTrees

/-- What came of building the tree of a route. -/
structure Outcome where
  route : Route
  result : Except BuildError Tree

namespace Outcome

/-- The tree, if there is one. -/
def tree? (o : Outcome) : Option Tree := o.result.toOption

/-- Why there is no tree, if so. -/
def failure? (o : Outcome) : Option String :=
  match o.result with
  | .ok _ => none
  | .error e => some e.message

end Outcome

/-- The routes of a project and their trees, in the order of routes. -/
structure Forest where
  outcomes : List Outcome
  /-- How many files have been read as modules. -/
  filesRead : Nat

/-- Why a project has no trees. -/
inductive ForestError where
  | walk (error : Disk.WalkError)
  | noEntries (routingRoot : Path)
deriving DecidableEq, Repr

/-- What is said of a project of which no forest is made. -/
def ForestError.message : ForestError → String
  | walk e => e.message
  | noEntries routingRoot => "No entry files found under " ++ routingRoot.text

namespace Forest

/-- The routes, which are in order and differ. -/
def routes (f : Forest) : List Route := f.outcomes.map (·.route)

/-- The routes of a forest, as they are shown. -/
def paths (f : Forest) : List String := f.routes.map (·.route)

/-- The route that is shown first. -/
def first? (f : Forest) : Option String := f.paths.head?

/-- What became of a route. -/
def outcome? (f : Forest) (route : String) : Option Outcome :=
  f.outcomes.find? fun o => o.route.route = route

/-- Whether a route is in the forest. -/
def contains (f : Forest) (route : String) : Bool := f.paths.contains route

/-- The tree of a route, if it was built. -/
def tree? (f : Forest) (route : String) : Option Tree := (f.outcome? route).bind Outcome.tree?

/-- Why the tree of a route was not built, if it was not. -/
def failure? (f : Forest) (route : String) : Option String :=
  (f.outcome? route).bind Outcome.failure?

/-- The routes with a tree. -/
def trees (f : Forest) : List (String × Tree) :=
  f.outcomes.filterMap fun o => o.tree?.map fun t => (o.route.route, t)

/-- The routes without a tree, and why. -/
def failures (f : Forest) : List (String × String) :=
  f.outcomes.filterMap fun o => o.failure?.map fun e => (o.route.route, e)

/-- Builds the trees of some routes one after the other. -/
def grow (s : Scope) : List Route → ModuleCache → List Outcome × ModuleCache
  | [], cache => ([], cache)
  | r :: rest, cache =>
    let (result, next) := (s.build r).run cache
    let (outcomes, last) := grow s rest next
    (⟨r, result⟩ :: outcomes, last)

/-- The trees of a project's routes. -/
def ofRoutes (d : Disk) (p : Project) (routes : RouteSet) : Forest :=
  let (outcomes, cache) := grow (.ofProject d p) routes.routes .empty
  ⟨outcomes, cache.size⟩

/-- The forest of a project on a disk: all routes below its routing root, with one cache. -/
def ofProject (d : Disk) (p : Project) : Except ForestError Forest :=
  match RouteSet.ofDisk d p.routingRoot with
  | .error e => .error (.walk e)
  | .ok routes =>
    if routes.isEmpty then .error (.noEntries p.routingRoot) else .ok (ofRoutes d p routes)

end Forest

end RouteTrees
