import RouteTrees.Panel.Message
import RouteTrees.Panel.Page
import RouteTrees.Tree.Forest

/-!
# The panel

A panel shows one route of a project at a time. It changes to another when it is asked to, and stays as it
is when asked for a route that the project does not have.
-/

namespace RouteTrees

/-- A panel and the route that it shows. -/
structure Panel where
  forest : Forest
  current : String

namespace Panel

/-- Why a panel cannot show what it is to show. -/
inductive Refusal where
  | noRoutes
  | unknownRoute (route : String)
deriving DecidableEq, Repr

/-- What is said instead of a document. -/
def Refusal.message : Refusal → String
  | noRoutes => "No routes to display"
  | unknownRoute route => "Unknown route '" ++ route ++ "'"

/-- The panel on another route. -/
def select (p : Panel) (route : String) : Except Refusal Panel :=
  if p.forest.contains route then .ok { p with current := route } else .error (.unknownRoute route)

/-- A panel on the first route. -/
def onFirst (f : Forest) : Except Refusal Panel :=
  match f.first? with
  | some route => .ok ⟨f, route⟩
  | none => .error .noRoutes

/-- A panel on a route, or on the first if none is given. -/
def onRoute (f : Forest) (route : Option String) : Except Refusal Panel :=
  match route with
  | none => onFirst f
  | some r => do (← onFirst f).select r

/-- The document of the route that the panel shows: its tree, or what went wrong with it. -/
def document (p : Panel) : String :=
  page p.current p.forest.paths ((p.forest.tree? p.current).map Nested.ofTree)
    (p.forest.failure? p.current)

/-- What a panel becomes by a message. -/
def handle (p : Panel) : Message → Except Refusal Panel
  | .changeRoute route => p.select route

end Panel

end RouteTrees
