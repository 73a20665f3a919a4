import RouteTrees.Tree.Nested

/-!
# Outlines of nested trees

The outline of a nested tree are its nodes one after the other, each before those below it, with the
number of levels above it. It has as many entries as the tree has nodes, and its deepest entry is as deep
as the tree is high.
-/

namespace RouteTrees.Nested

/-- A node of a nested tree by itself, with the number of those above it. -/
structure Entry where
  depth : Nat
  name : String
  kind : Option Kind
  path : Option String
  cycle : Bool
deriving DecidableEq, Repr

/-- The name of a node, behind as many tabs as nodes are above it. -/
def Entry.line (e : Entry) : String :=
  String.ofList (List.replicate e.depth '\t') ++ e.name ++ "\n"

mutual

/-- The nodes of a tree that is below so many others, depth first. -/
def outline (depth : Nat) : Nested → List Entry
  | node name kind path cycle children =>
    ⟨depth, name, kind, path, cycle⟩ :: outlineAll (depth + 1) children

/-- The lines of some trees, at a depth. -/
def outlineAll (depth : Nat) : List Nested → List Entry
  | [] => []
  | n :: ns => n.outline depth ++ outlineAll depth ns

end

mutual

/-- How many steps down the deepest node of a tree is; the longest way from the root has one node more. -/
def height : Nested → Nat
  | node _ _ _ _ children => heightBelow children

/-- How high what is below a node is. -/
def heightBelow : List Nested → Nat
  | [] => 0
  | n :: ns => max (n.height + 1) (heightBelow ns)

end

theorem outlineAll_eq (depth : Nat) (ns : List Nested) :
    outlineAll depth ns = ns.flatMap (outline depth) := by
  induction ns with
  | nil => rfl
  | cons n ns ih => rw [outlineAll, ih, List.flatMap_cons]

mutual

/-- An outline has a line for each node, by induction on the tree. -/
theorem length_outline (depth : Nat) : ∀ n : Nested, (n.outline depth).length = n.size
  | node name kind path cycle children => by
    rw [outline, List.length_cons, length_outlineAll (depth + 1) children, size, Nat.add_comm]

theorem length_outlineAll (depth : Nat) :
    ∀ ns : List Nested, (outlineAll depth ns).length = sizeAll ns
  | [] => rfl
  | n :: ns => by
    rw [outlineAll, List.length_append, length_outline depth n, length_outlineAll depth ns, sizeAll]

end

mutual

/-- A tree is as high as its deepest entry is deep. -/
theorem height_le_iff (depth k : Nat) :
    ∀ n : Nested, n.height ≤ k ↔ ∀ e ∈ n.outline depth, e.depth ≤ depth + k
  | node name kind path cycle children => by
    rw [height, outline, List.forall_mem_cons, heightBelow_le_iff depth k children]
    exact ⟨fun below => ⟨Nat.le_add_right depth k, below⟩, fun all => all.2⟩

/-- What is below a node is no higher than its deepest line. -/
theorem heightBelow_le_iff (depth k : Nat) :
    ∀ ns : List Nested, heightBelow ns ≤ k ↔ ∀ e ∈ outlineAll (depth + 1) ns, e.depth ≤ depth + k
  | [] => by simp [heightBelow, outlineAll]
  | n :: ns => by
    have first : n.height + 1 ≤ k ↔ ∀ e ∈ n.outline (depth + 1), e.depth ≤ depth + k := by
      cases k with
      | zero =>
        obtain ⟨name, kind, path, cycle, children⟩ := n
        refine iff_of_false (Nat.not_succ_le_zero _) fun all => ?_
        rw [outline] at all
        exact Nat.not_succ_le_self depth (all _ List.mem_cons_self)
      | succ k =>
        rw [Nat.add_le_add_iff_right, height_le_iff (depth + 1) k n, Nat.add_right_comm,
          Nat.add_assoc]
    rw [heightBelow, Nat.max_le, first, heightBelow_le_iff depth k ns, outlineAll]
    simp only [List.mem_append, or_imp, forall_and]

end

end RouteTrees.Nested
