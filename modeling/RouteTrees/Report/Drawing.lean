import RouteTrees.Report.Style
import RouteTrees.Tree.Basic

/-!
# Drawings of trees

The tree of a route as lines of text. A line begins with a group of four characters for each level above
its node: blank where the node above was the last child of its parent, and with a bar where more of them
follow. Then comes the connector of the node itself.
-/

namespace RouteTrees.Report

open Style (paint)

/-- What is shown of a kind: a node that closes a cycle has none. -/
def kindLabel (colour : Bool) : Option Kind → String
  | some .client => paint colour .yellow Kind.client.name
  | some .server => paint colour .green Kind.server.name
  | none => paint colour .dim "?"

/-- A path as it is printed: what leads to it from a directory, if it is below. -/
def relativeText (root p : Path) : String := ((p.stripBase? root).getD p).text

/-- A node that is still to be drawn. -/
structure Pending where
  id : NodeId
  /-- What its line begins with. -/
  indent : String
  /-- Whether no sibling follows. -/
  isLast : Bool
deriving DecidableEq, Repr

namespace Pending

/-- What stands before the name of a node, for the last of its siblings or for any other. -/
def connector (p : Pending) : String := if p.isLast then "└──" else "├──"

/-- What the lines below a node begin with. -/
def indentBelow (p : Pending) : String := p.indent ++ if p.isLast then "    " else "│   "

/-- The children of a node, of which only the last knows that it is. -/
def siblings (indent : String) : List NodeId → List Pending
  | [] => []
  | [id] => [⟨id, indent, true⟩]
  | id :: rest => ⟨id, indent, false⟩ :: siblings indent rest

end Pending

/-- What a line says of its node: the name, and then the kind and the path or that it closes a cycle. -/
def nodeText (colour : Bool) (root : Path) (n : TreeNode) : String :=
  if n.cycle then n.component.name ++ " " ++ paint colour .dim "(cycle)"
  else
    n.component.name ++ " [" ++ kindLabel colour n.component.kind ++ "] " ++
      paint colour .dim (relativeText root n.component.path)

/-- The line of a node. -/
def nodeLine (colour : Bool) (root : Path) (p : Pending) (n : TreeNode) : String :=
  p.indent ++ paint colour .dim p.connector ++ " " ++ nodeText colour root n

/-- What is to be drawn below a node: nothing if it closes a cycle. -/
def below (t : Tree) (p : Pending) (n : TreeNode) : List Pending :=
  if n.cycle then [] else Pending.siblings p.indentBelow (t.childIds p.id)

/-- The lines of pending nodes and of all that is below them, at most so many. -/
def lines (colour : Bool) (root : Path) (t : Tree) : Nat → List Pending → List String
  | 0, _ => []
  | _ + 1, [] => []
  | k + 1, p :: rest =>
    match t.node? p.id with
    | some n => nodeLine colour root p n :: lines colour root t k (below t p n ++ rest)
    | none => lines colour root t k rest

/-- The line of the root, which is called like the route. -/
def headLine (colour : Bool) (root : Path) (route : String) (head : Component) : String :=
  paint colour .bold route ++ " [" ++ kindLabel colour head.kind ++ "] " ++
    paint colour .blue (relativeText root head.path)

/-- Lines, each with its end. -/
def unlines (ls : List String) : String := String.join (ls.map (· ++ "\n"))

/-- The drawing of a route's tree, with an empty line behind it. -/
def drawing (colour : Bool) (root : Path) (route : String) (t : Tree) : String :=
  let head := match t.node? 0 with
    | some n => [headLine colour root route n.component]
    | none => []
  unlines (head ++ lines colour root t t.size (Pending.siblings "" (t.childIds 0)) ++ [""])

end RouteTrees.Report
