import RouteTrees.Proofs.Tree.Lineage
import RouteTrees.Proofs.Tree.Turns
import RouteTrees.Report.Drawing

/-!
# The lines of a drawing

A drawing is made from a stack of nodes that wait for their lines, each with what its line begins with. What
that is follows from where the node stands: a group for each node on the way to it from below the root on,
blank if that one is the last child of its parent. A stack of such nodes stays one as long as its first node
is drawn and its children put in its place, so the lines are those of the nodes in the order of the visit.

The drawing goes no further at a node that closes a cycle, the visit does. In a tree that a build answers
nothing is below such a node.
-/

namespace RouteTrees

/-- Whether a table of nodes is a tree in which nothing is below a node that closes a cycle. -/
structure Tree.Drawable (t : Tree) : Prop where
  linked : t.Linked
  closed : ∀ id n, t.node? id = some n → n.cycle = true → n.children = []

/-- Additions below nodes that are there give such a tree, if none is below a node that closes a cycle. -/
theorem Tree.drawable_of_addAll? {root : Component} {adds : List Addition} {t : Tree}
    (within : Addition.Within 1 adds) (added : (Tree.ofRoot root).addAll? adds = some t)
    (closed : ∀ id n, t.node? id = some n → n.cycle = true → n.children = []) : t.Drawable := by
  obtain ⟨u, added', linked, -⟩ := (Tree.linked_ofRoot root).exists_addAll? within
  cases added.symm.trans added'
  exact ⟨linked, closed⟩

/-- All that a build answers is such a tree. -/
theorem Scope.drawable_of_build {s : Scope} (wellFormed : s.WellFormed) {r : Route} {c : ModuleCache}
    (truthful : c.Truthful s.disk (s.Reaches (s.disk.canonical r.entry))) {t : Tree}
    (built : ((s.build r).run c).1 = .ok t) : t.Drawable := by
  rw [run_build_eq_alone wellFormed r truthful] at built
  refine ⟨linked_of_alone_build built, fun id n found cycle => ?_⟩
  cases (complete_of_alone_build built).finished id n found with
  | closed _ _ children => exact children
  | grown _ open_ => cases open_.symm.trans cycle

namespace Report

variable {t : Tree} {id p a : NodeId} {depth : Nat}

/-! ## What a line begins with -/

/-- What stands in the place of a node in the lines of those below it. -/
def group (isLast : Bool) : String := if isLast then "    " else "│   "

/-- What a line begins with before its connector: a group for each node on the way from below the root. -/
def groups (t : Tree) (id : NodeId) : List String :=
  (t.ancestors id).tail.dropLast.reverse.map fun a => group (t.isLast a)

theorem groups_of_child_of_root (linked : t.Linked) (parent : t.parent? id = some 0) :
    groups t id = [] := by
  rw [groups, linked.ancestors_eq parent, linked.ancestors_zero]
  rfl

/-- Below a node other than the root, there is one more group than for the node. -/
theorem groups_of_child (linked : t.Linked) (parent : t.parent? id = some p) (pos : 0 < p) :
    groups t id = groups t p ++ [group (t.isLast p)] := by
  have lt : p < t.size := Nat.lt_trans (linked.grounded id p parent) (Tree.lt_size_of_parent? parent)
  obtain ⟨q, less, above⟩ := linked.below p pos lt
  have ne : t.ancestors q ≠ [] :=
    List.ne_nil_of_mem (linked.self_mem_ancestors (Nat.lt_trans less lt))
  rw [groups, groups, linked.ancestors_eq parent, linked.ancestors_eq above, List.tail_cons,
    List.tail_cons, List.dropLast_cons_of_ne_nil ne, List.reverse_cons, List.map_append,
    List.map_singleton]

/-- There are as many groups as nodes between a node and the root. -/
theorem length_groups (linked : t.Linked) (parent : t.parent? id = some p) :
    (groups t id).length + 1 = t.depthOf id := by
  have deep : t.depthOf id = t.depthOf p + 1 := linked.depthOf_eq parent
  rw [groups, List.length_map, List.length_reverse, List.length_dropLast, List.length_tail]
  rw [Tree.depthOf] at deep ⊢
  omega

/-- A group is that of the node at its depth. -/
theorem getElem?_groups (linked : t.Linked) (lt : id < t.size) (mem : a ∈ t.ancestors id)
    (here : t.depthOf a = depth + 1) (above : depth + 1 < t.depthOf id) :
    (groups t id)[depth]? = some (group (t.isLast a)) := by
  induction id, lt using linked.induct_from_root with
  | root =>
    rw [linked.depthOf_zero] at above
    exact absurd above (Nat.not_lt_zero _)
  | child id p lt ltP parent ih =>
    rw [linked.ancestors_eq parent, List.mem_cons] at mem
    -- a node on the way that has more groups behind it is not the last of the way
    have mem : a ∈ t.ancestors p := by
      refine mem.resolve_left ?_
      rintro rfl
      exact absurd here (Nat.ne_of_gt above)
    have pos : 0 < p := by
      refine Nat.pos_of_ne_zero ?_
      rintro rfl
      rw [linked.ancestors_zero, List.mem_singleton] at mem
      rw [mem, linked.depthOf_zero] at here
      cases here
    rw [groups_of_child linked parent pos]
    rcases eq_or_ne a p with rfl | ne
    · obtain ⟨q, -, above'⟩ := linked.below a pos ltP
      have length : (groups t a).length = depth :=
        Nat.succ.inj ((length_groups linked above').trans here)
      rw [← length]
      exact List.getElem?_concat_length
    · have found := ih mem (here ▸ linked.depthOf_lt mem ne ltP)
      have less := (List.getElem?_eq_some_iff.mp found).1
      rwa [List.getElem?_append_left less]

/-! ## Nodes that wait -/

/-- A node as it waits to be drawn. -/
def pending (t : Tree) (id : NodeId) : Pending := ⟨id, String.join (groups t id), t.isLast id⟩

/-- The children of a node are pending in their order, and only the last is marked so. -/
theorem siblings_eq_map {ids : List NodeId} (once : ids.Nodup) (indent : String) :
    Pending.siblings indent ids = ids.map fun c => ⟨c, indent, ids.getLast? = some c⟩ := by
  induction ids with
  | nil => rfl
  | cons first rest ih =>
    cases rest with
    | nil => simp [Pending.siblings]
    | cons next rest =>
      obtain ⟨new, once⟩ := List.nodup_cons.mp once
      have more : (next :: rest).getLast? ≠ some first := fun last =>
        new (List.mem_of_getLast? last)
      rw [Pending.siblings, ih once, List.getLast?_cons_cons]
      · simp only [List.map_cons, decide_eq_false more]
      · exact nofun

/-- The children of a node wait as their places in the tree ask for, if their lines begin as its own says. -/
theorem siblings_childIds (linked : t.Linked) {indent : String}
    (given : ∀ c, t.parent? c = some p → String.join (groups t c) = indent) :
    Pending.siblings indent (t.childIds p) = (t.childIds p).map (pending t) := by
  rw [siblings_eq_map (linked.nodup_childIds p)]
  refine List.map_congr_left fun c child => ?_
  have parent := linked.mem_childIds_iff.mp child
  rw [pending, given c parent, Tree.isLast_eq parent]

theorem below_pending (drawable : t.Drawable) {n : TreeNode} (found : t.node? id = some n)
    (pos : 0 < id) : below t (pending t id) n = (t.childIds id).map (pending t) := by
  have linked := drawable.linked
  rw [below]
  split
  · next cycle =>
    rw [Tree.childIds_of_node? found, drawable.closed id n found cycle, List.map_nil]
  · refine siblings_childIds linked fun c parent => ?_
    rw [groups_of_child linked parent pos, String.join_append, String.join_cons, String.join_nil,
      String.append_empty]
    rfl

/-! ## The lines -/

/-- The line of a node. -/
def lineOf (colour : Bool) (root : Path) (t : Tree) (id : NodeId) : String :=
  match t.node? id with
  | some n => nodeLine colour root (pending t id) n
  | none => ""

/-- Drawing nodes from a stack follows the visit from that stack. -/
theorem lines_eq_map (drawable : t.Drawable) (colour : Bool) (root : Path) {stack order : List NodeId}
    (visits : t.Visits stack order) (inside : ∀ id ∈ stack, 0 < id ∧ id < t.size) {n : Nat}
    (enough : order.length ≤ n) :
    lines colour root t n (stack.map (pending t)) = order.map (lineOf colour root t) := by
  induction visits generalizing n with
  | done => cases n <;> rfl
  | @next id stack order _ ih =>
    cases n with
    | zero => cases enough
    | succ n =>
      obtain ⟨⟨pos, lt⟩, later⟩ := List.forall_mem_cons.mp inside
      obtain ⟨node, found⟩ := Tree.exists_node? lt
      have inside' : ∀ a ∈ t.childIds id ++ stack, 0 < a ∧ a < t.size := by
        intro a mem
        rcases List.mem_append.mp mem with child | old
        · obtain ⟨less, bound⟩ := drawable.linked.order child
          exact ⟨Nat.zero_lt_of_lt less, bound⟩
        · exact later a old
      have here : t.node? (pending t id).id = some node := found
      have line : lineOf colour root t id = nodeLine colour root (pending t id) node := by
        simp only [lineOf, found]
      rw [List.map_cons, lines, here]
      simp only [below_pending drawable found pos, ← List.map_append,
        ih inside' (Nat.le_of_succ_le_succ enough), List.map_cons, line]

/-- A drawing is its head line, the lines of the other nodes in the order of the visit, and an empty line. -/
theorem drawing_eq (drawable : t.Drawable) (colour : Bool) (root : Path) (route : String) {head : TreeNode}
    {others : List NodeId} (found : t.node? 0 = some head) (listed : t.preorder = 0 :: others) :
    drawing colour root route t = unlines
      (headLine colour root route head.component :: others.map (lineOf colour root t) ++ [""]) := by
  have linked := drawable.linked
  have first : Pending.siblings "" (t.childIds 0) = (t.childIds 0).map (pending t) :=
    siblings_childIds linked fun c parent => by rw [groups_of_child_of_root linked parent]; rfl
  have inside : ∀ c ∈ t.childIds 0, 0 < c ∧ c < t.size := fun c child => linked.order child
  have enough : others.length ≤ t.size := by
    have length := linked.preorder_perm.length_eq
    rw [listed, List.length_range] at length
    exact Nat.le_of_succ_le (Nat.le_of_eq length)
  have visits := linked.visits_root
  rw [← linked.preorder_eq_listing, listed] at visits
  cases visits with
  | next rest =>
    rw [List.append_nil] at rest
    simp only [drawing, found, first, lines_eq_map drawable colour root rest inside enough,
      List.cons_append, List.nil_append]

end Report

end RouteTrees
