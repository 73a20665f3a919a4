import RouteTrees.Report.Drawing
import RouteTrees.Tree.Forest
import RouteTrees.Tree.Written

/-!
# Reports on all routes

The list of a project's routes, and the drawings of their trees followed by what went wrong.
-/

namespace RouteTrees.Report

open Style (paint)

/-- The line of a route in the list of routes. -/
def routeLine (colour : Bool) (o : Outcome) : String :=
  (if o.failure?.isSome then paint colour .red "✗" else paint colour .brightBlue "●") ++ " " ++
    paint colour .bold o.route.route ++ "  " ++ paint colour .dim o.route.entry.text

/-- The lines of all routes. -/
def routeList (colour : Bool) (f : Forest) : String := unlines (f.outcomes.map (routeLine colour))

/-- The line of a route whose tree could not be built. -/
def failureLine (colour : Bool) (route error : String) : String :=
  paint colour .boldRed "✗" ++ " " ++ paint colour .bold route ++ " " ++ paint colour .red error

/-- Whether a route is asked for. -/
def isSelected (only : Option String) (route : String) : Bool := only.all fun r => r = route

/-- The drawings of the routes asked for that have a tree, and then what went wrong with the others. -/
def drawings (colour : Bool) (root : Path) (only : Option String) (f : Forest) : String :=
  String.join ((f.trees.filter fun t => isSelected only t.1).map fun t =>
    drawing colour root t.1 t.2) ++
  unlines ((f.failures.filter fun e => isSelected only e.1).map fun e =>
    failureLine colour e.1 e.2)

/-- The trees of the routes asked for that have one, as data, each a field named after its route. -/
def asJson (only : Option String) (f : Forest) : Json :=
  .object ((f.trees.filter fun t => isSelected only t.1).map fun t =>
    (t.1, (Nested.ofTree t.2).toJson))

end RouteTrees.Report
