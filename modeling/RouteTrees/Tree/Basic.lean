import RouteTrees.Path.Basic

/-!
# Import trees

The tree of what a route imports, kept as a table of nodes that know their parent and their children by
number. The root has number 0. A node is added below a node that is in the table, the new one included;
only the former gives a tree, and everything here is bounded by the number of nodes so that it answers in
either case.
-/

namespace RouteTrees

/-- Where a component runs. -/
inductive Kind where
  | client
  | server
deriving DecidableEq, Repr

namespace Kind

/-- How a kind is shown. -/
def name : Kind → String
  | .client => "client"
  | .server => "server"

/-- The kind of a module, given whether it has the client's directive. -/
def ofDirective (client : Bool) : Kind := if client then .client else .server

end Kind

/-- A file as it was met on the way through a route's imports. -/
structure Component where
  /-- The import as it was written, or the route itself. -/
  name : String
  path : Path
  /-- Unknown until the file has been read. -/
  kind : Option Kind := none
deriving DecidableEq, Repr

/-- The number of a node. -/
abbrev NodeId := Nat

/-- A component in its place. -/
structure TreeNode where
  component : Component
  /-- What it imports, in order. -/
  children : List NodeId := []
  /-- Whether it leads back to a file on the way from the root, and is not followed. -/
  cycle : Bool := false
  parent : Option NodeId := none
deriving Repr

/-- The imports of a route. -/
structure Tree where
  nodes : Array TreeNode

namespace Tree

/-- The tree of which only the root is known. -/
def ofRoot (root : Component) : Tree := ⟨#[{ component := root }]⟩

/-- The number of nodes. -/
def size (t : Tree) : Nat := t.nodes.size

/-- The node under a number. -/
def node? (t : Tree) (id : NodeId) : Option TreeNode := t.nodes[id]?

/-- A tree in which the node under a number has been changed. -/
def modify (t : Tree) (id : NodeId) (change : TreeNode → TreeNode) : Tree :=
  ⟨t.nodes.modify id change⟩

/-- Adds a component as the last child of a node. -/
def add (t : Tree) (parent : NodeId) (c : Component) (cycle : Bool) : Tree :=
  (Tree.mk (t.nodes.push { component := c, cycle := cycle, parent := some parent })).modify parent
    fun n => { n with children := n.children ++ [t.size] }

/-- Adds a component as the last child of a node whose number does not exceed that of the new node. -/
def add? (t : Tree) (parent : NodeId) (c : Component) (cycle : Bool) : Option Tree :=
  if parent ≤ t.size then some (t.add parent c cycle) else none

/-- The numbers of the children of a node, in their order. -/
def childIds (t : Tree) (id : NodeId) : List NodeId :=
  match t.node? id with
  | some n => n.children
  | none => []

/-- The children of a node, in their order. -/
def children (t : Tree) (id : NodeId) : List TreeNode := (t.childIds id).filterMap t.node?

/-- The parent of a node. -/
def parent? (t : Tree) (id : NodeId) : Option NodeId := (t.node? id).bind (·.parent)

/-- A node and those above it, at most so many. -/
def climb (t : Tree) : Nat → NodeId → List NodeId
  | 0, _ => []
  | n + 1, id =>
    id :: match t.parent? id with
      | some p => climb t n p
      | none => []

/-- A node and those above it, up to the root. -/
def ancestors (t : Tree) (id : NodeId) : List NodeId := t.climb t.size id

/-- The file of a node. -/
def path? (t : Tree) (id : NodeId) : Option Path := (t.node? id).map (·.component.path)

/-- Whether a node is of a given file. -/
def isAt (t : Tree) (path : Path) (id : NodeId) : Bool :=
  match t.path? id with
  | some p => p.same path
  | none => false

/-- Whether a file is met on the way from the root to a node. -/
def isOnPath (t : Tree) (id : NodeId) (path : Path) : Bool := (t.ancestors id).any (t.isAt path)

/-- Visits nodes from a stack, each followed by what is below it, at most so many. -/
def visit (t : Tree) : Nat → List NodeId → List NodeId
  | 0, _ => []
  | _ + 1, [] => []
  | n + 1, id :: stack => id :: visit t n (t.childIds id ++ stack)

/-- All nodes, each before those below it, and those in order. -/
def preorder (t : Tree) : List NodeId := t.visit t.size [0]

/-- The first node of a file, in preorder. -/
def find? (t : Tree) (path : Path) : Option NodeId := t.preorder.find? (t.isAt path)

/-- How many nodes are above a node. -/
def depthOf (t : Tree) (id : NodeId) : Nat := (t.ancestors id).length - 1

/-- The greatest depth. -/
def maxDepth (t : Tree) : Nat := (List.range t.size).foldl (fun d id => max d (t.depthOf id)) 0

/-- The name of a node, or nothing if there is none. -/
def nameOf (t : Tree) (id : NodeId) : String :=
  match t.node? id with
  | some n => n.component.name
  | none => ""

/-- The names of all nodes, one a line, behind as many tabs as nodes are above it. -/
def display (t : Tree) : String :=
  String.join <| t.preorder.map fun id =>
    String.ofList (List.replicate (t.depthOf id) '\t') ++ t.nameOf id ++ "\n"

end Tree

end RouteTrees
