import RouteTrees.Tree.Basic

/-!
# Nested trees

A tree in which a node holds its children, as it is written down for others to read. It is made from the
table of nodes from the last to the first, so that each node finds its children finished.
-/

namespace RouteTrees

/-- A node with all that is below it. -/
inductive Nested where
  | node (name : String) (kind : Option Kind) (path : Option String) (cycle : Bool)
    (children : List Nested)

namespace Nested

/-- The name of a node. -/
def name : Nested → String
  | node n _ _ _ _ => n

/-- What is below a node. -/
def children : Nested → List Nested
  | node _ _ _ _ cs => cs

/-- Takes finished nodes by number, each once: what was found, and what is left. -/
def takeAll : List NodeId → Array (Option Nested) → List Nested × Array (Option Nested)
  | [], built => ([], built)
  | id :: ids, built =>
    match built[id]? with
    | some (some n) =>
      let (ns, left) := takeAll ids (built.set! id none)
      (n :: ns, left)
    | _ => takeAll ids built

/-- A node of a table with given children. -/
def ofNode (n : TreeNode) (children : List Nested) : Nested :=
  .node n.component.name n.component.kind (some n.component.path.text) n.cycle children

/-- Finishes the nodes below a number, from the last to the first. -/
def sweep (t : Tree) : Nat → Array (Option Nested) → Array (Option Nested)
  | 0, built => built
  | id + 1, built =>
    match t.node? id with
    | some n =>
      let (children, left) := takeAll n.children built
      sweep t id (left.set! id (some (ofNode n children)))
    | none => sweep t id built

/-- The nested form of a tree. -/
def ofTree (t : Tree) : Nested :=
  match (sweep t t.size (Array.replicate t.size none))[0]? with
  | some (some n) => n
  | _ => .node "" none none false []

/-! ## How many nodes there are -/

mutual

/-- How many nodes there are at and below a node. -/
def size : Nested → Nat
  | node _ _ _ _ cs => 1 + sizeAll cs

/-- The number of nodes of some trees. -/
def sizeAll : List Nested → Nat
  | [] => 0
  | n :: ns => n.size + sizeAll ns

end

/-- A tree has one node more than what is below it. -/
theorem size_eq (n : Nested) : n.size = 1 + sizeAll n.children := by
  obtain ⟨name, kind, path, cycle, children⟩ := n
  rw [size, Nested.children]

/-- The trees of two lists have the nodes of both. -/
theorem sizeAll_append (ns ms : List Nested) : sizeAll (ns ++ ms) = sizeAll ns + sizeAll ms := by
  induction ns with
  | nil => rw [List.nil_append, sizeAll, Nat.zero_add]
  | cons n ns ih => rw [List.cons_append, sizeAll, ih, sizeAll, Nat.add_assoc]

/-- In which order trees are listed does not count. -/
theorem sizeAll_reverse (ns : List Nested) : sizeAll ns.reverse = sizeAll ns := by
  induction ns with
  | nil => rfl
  | cons n ns ih =>
    rw [List.reverse_cons, sizeAll_append, ih, sizeAll, sizeAll, sizeAll, Nat.add_zero, Nat.add_comm]

/-- Putting the children of the first tree of a stack in its place takes one node away. -/
theorem sizeAll_unstack (n : Nested) (stack : List Nested) :
    sizeAll (n :: stack) = 1 + sizeAll (n.children.reverse ++ stack) := by
  rw [sizeAll, size_eq, sizeAll_append, sizeAll_reverse, Nat.add_assoc]

/-- Counts the nodes of a stack of trees. The first is taken off and its children are put on, the last of them on
top. -/
def countStack (count : Nat) : List Nested → Nat
  | [] => count
  | n :: stack => countStack (count + 1) (n.children.reverse ++ stack)
termination_by stack => sizeAll stack
decreasing_by
  rw [sizeAll_unstack]
  exact Nat.lt_add_of_pos_left Nat.one_pos

/-- The number of nodes, counted by a stack of what has not been counted yet. -/
def count (n : Nested) : Nat := countStack 0 [n]

/-- Counting a stack adds the sizes of what is on it: what is below a node is put on the stack in its place. -/
theorem countStack_eq (count : Nat) (stack : List Nested) : countStack count stack = count + sizeAll stack := by
  induction count, stack using countStack.induct with
  | case1 count => rw [countStack, sizeAll, Nat.add_zero]
  | case2 count n stack ih => rw [countStack, ih, sizeAll_unstack, Nat.add_assoc]

/-- The stack meets every node once. -/
theorem count_eq_size (n : Nested) : n.count = n.size := by
  rw [count, countStack_eq, sizeAll, sizeAll, Nat.add_zero, Nat.zero_add]

end Nested

end RouteTrees
