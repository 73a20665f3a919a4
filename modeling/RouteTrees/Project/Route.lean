import RouteTrees.Path.Basic
import RouteTrees.Project.Convention

/-!
# Routes

A route is what a visitor asks for; a file named by convention answers it. `RouteSet` keeps the routes in
the order of their text, each with the file that defines it: of several files for one route, the one with
the better rank.
-/

namespace RouteTrees

/-- A route and the file that defines it. -/
structure Route where
  route : String
  entry : Path
deriving DecidableEq, Repr

namespace Route

/-- How good a file is at defining a route; smaller is better. A name or extension that defines none
stands behind all that do. -/
structure Rank where
  stem : Nat
  extension : Nat
deriving DecidableEq, Repr

/-- The rank of an entry file, which decides between files of one directory. -/
def rank (file : Path) : Rank where
  stem := Convention.entryStems.idxOf ((file.stem?).getD "")
  extension := Convention.entryExtensions.idxOf ((file.extension?).getD "")

/-- Whether a rank is not behind another. -/
def Rank.atMost (r s : Rank) : Bool :=
  r.stem < s.stem || r.stem = s.stem && r.extension ≤ s.extension

/-- Whether a file defines a route by its name. -/
def isEntry (file : Path) : Bool :=
  (rank file).stem < Convention.entryStems.length &&
    (rank file).extension < Convention.entryExtensions.length

/-- The route that the entry at a path below the routing directory defines: the names of the directories
on the way, with a slash before the first and after each. -/
def ofEntry (relative : Path) : String :=
  let names := match relative.parent? with
    | some directory => directory.names
    | none => []
  "/" ++ String.join (names.map (· ++ "/"))

end Route

/-- Routes in order, each once. -/
structure RouteSet where
  routes : List Route
deriving DecidableEq, Repr

namespace RouteSet

/-- The set without routes. -/
def empty : RouteSet := ⟨[]⟩

/-- Puts a route into a list in order; an entry that is already there stays unless the new one ranks
better. -/
def insertInto (route : String) (entry : Path) : List Route → List Route
  | [] => [⟨route, entry⟩]
  | r :: rest =>
    if r.route = route then
      (if (Route.rank r.entry).atMost (Route.rank entry) then r else ⟨route, entry⟩) :: rest
    else if r.route < route then r :: insertInto route entry rest
    else ⟨route, entry⟩ :: r :: rest

/-- Puts a route into the set. -/
def insert (s : RouteSet) (route : String) (entry : Path) : RouteSet :=
  ⟨insertInto route entry s.routes⟩

/-- The number of routes. -/
def size (s : RouteSet) : Nat := s.routes.length

/-- Whether there is no route. -/
def isEmpty (s : RouteSet) : Bool := s.routes.isEmpty

/-- The routes, as they are shown. -/
def paths (s : RouteSet) : List String := s.routes.map (·.route)

/-- Whether a route is in the set. -/
def contains (s : RouteSet) (route : String) : Bool := s.paths.contains route

/-- The entry file of a route. -/
def entry? (s : RouteSet) (route : String) : Option Path :=
  (s.routes.find? fun r => r.route = route).map (·.entry)

/-- The route that is shown first. -/
def first? (s : RouteSet) : Option String := s.paths.head?

end RouteSet

end RouteTrees
