import RouteTrees.Proofs.Tree.Expansion
import RouteTrees.Proofs.Tree.Outline
import RouteTrees.Proofs.Tree.Preorder

/-!
# One tree, seen in several ways

A table of nodes is looked at by a visit with a stack, by a sweep from its end that nests it, by way of its
parents and as indented text. Of a tree all of these show the same: the nested form is what is read from
the root on, its outline are the nodes in the order of the visit, and depths, counts and the text agree
with it.

The sweep takes the children of a node from among the finished nodes, and passes over one that is not
there. That it never has to is because children come behind their parent and have no other.
-/

namespace RouteTrees

namespace Tree

variable {t : Tree} {id : NodeId} {n : TreeNode}

/-! ## Reading and listing -/

/-- A linked tree is nested node by node. -/
theorem Linked.nest_eq (linked : t.Linked) (found : t.node? id = some n) :
    t.nest id = .ofNode n (n.children.map t.nest) :=
  Tree.nest_eq found fun _ mem => linked.order (childIds_of_node? found ▸ mem)

/-- A node of the table by itself, with its depth. -/
def entry (t : Tree) (id : NodeId) : Nested.Entry :=
  match t.node? id with
  | some n =>
    ⟨t.depthOf id, n.component.name, n.component.kind, some n.component.path.text, n.cycle⟩
  | none => ⟨t.depthOf id, "", none, none, false⟩

@[simp] theorem depth_entry (t : Tree) (id : NodeId) : (t.entry id).depth = t.depthOf id := by
  rw [entry]
  split <;> rfl

@[simp] theorem name_entry (t : Tree) (id : NodeId) : (t.entry id).name = t.nameOf id := by
  rw [entry, nameOf]
  split <;> simp_all only

namespace Linked

/-- What is read from a node on is outlined as it is listed. -/
theorem outline_nest (linked : t.Linked) (lt : id < t.size) :
    (t.nest id).outline (t.depthOf id) = (t.listing id).map t.entry := by
  induction id, lt using linked.induct_from_leaves with
  | node id lt ih =>
    obtain ⟨n, found⟩ := exists_node? lt
    have here : t.entry id = ⟨t.depthOf id, n.component.name, n.component.kind,
        some n.component.path.text, n.cycle⟩ := by
      simp only [entry, found]
    rw [linked.nest_eq found, linked.listing_eq, List.map_cons, here, Nested.ofNode, Nested.outline,
      Nested.outlineAll_eq, childIds_of_node? found, List.map_flatMap, List.flatMap_map]
    congr 1
    refine List.flatMap_congr fun c mem => ?_
    have child : c ∈ t.childIds id := childIds_of_node? found ▸ mem
    rw [← linked.depthOf_eq (linked.mem_childIds_iff.mp child)]
    exact ih c child

/-- The outline of a tree are its nodes in the order of the visit. -/
theorem outline_root (linked : t.Linked) : (t.nest 0).outline 0 = t.preorder.map t.entry := by
  have root : t.depthOf 0 = 0 := by rw [depthOf, linked.ancestors_zero, List.length_singleton]
  have all := linked.outline_nest linked.nonempty
  rwa [root, ← linked.preorder_eq_listing] at all

end Linked

/-! ## Greatest depths -/

theorem foldl_max_le_iff {f : NodeId → Nat} {ids : List NodeId} {start k : Nat} :
    ids.foldl (fun d id => max d (f id)) start ≤ k ↔ start ≤ k ∧ ∀ id ∈ ids, f id ≤ k := by
  induction ids generalizing start with
  | nil => simp
  | cons id ids ih => rw [List.foldl_cons, ih, Nat.max_le, List.forall_mem_cons, and_assoc]

/-- The greatest depth is that of the deepest node. -/
theorem maxDepth_le_iff {k : Nat} : t.maxDepth ≤ k ↔ ∀ id < t.size, t.depthOf id ≤ k := by
  rw [maxDepth, foldl_max_le_iff]
  simp only [Nat.zero_le, true_and, List.mem_range]

namespace Linked

/-- The greatest depth is the height of the nested tree. -/
theorem maxDepth_eq (linked : t.Linked) : t.maxDepth = (t.nest 0).height := by
  have bounds : ∀ k, t.maxDepth ≤ k ↔ (t.nest 0).height ≤ k := by
    intro k
    rw [maxDepth_le_iff, Nested.height_le_iff 0 k, linked.outline_root, List.forall_mem_map]
    refine forall_congr' fun id => ?_
    rw [linked.preorder_perm.mem_iff, List.mem_range, depth_entry, Nat.zero_add]
  exact Nat.le_antisymm ((bounds _).mpr (Nat.le_refl _)) ((bounds _).mp (Nat.le_refl _))

/-- The lines that are shown are those of the outline. -/
theorem display_eq (linked : t.Linked) :
    t.display = String.join (((t.nest 0).outline 0).map Nested.Entry.line) := by
  rw [linked.outline_root, List.map_map, display]
  congr 2
  funext id
  rw [Function.comp_apply, Nested.Entry.line, depth_entry, name_entry]

end Linked

end Tree

/-! ## The sweep -/

namespace Nested

variable {t : Tree} {built : Array (Option Nested)}

/-- Taking finished nodes finds all of them and leaves the others. -/
theorem takeAll_eq {finished : NodeId → Nested} {ids : List NodeId} (once : ids.Nodup)
    (there : ∀ c ∈ ids, built[c]? = some (some (finished c))) :
    ∃ left, takeAll ids built = (ids.map finished, left) ∧
      ∀ id, left[id]? = if id ∈ ids then some none else built[id]? := by
  induction ids generalizing built with
  | nil => exact ⟨built, rfl, fun id => rfl⟩
  | cons c rest ih =>
    obtain ⟨new, once⟩ := List.nodup_cons.mp once
    have first := there c List.mem_cons_self
    have lt : c < built.size := (Array.getElem?_eq_some_iff.mp first).1
    have next : ∀ id, (built.set! c none)[id]? = if c = id then some none else built[id]? := by
      intro id
      rw [Array.set!_eq_setIfInBounds, Array.getElem?_setIfInBounds]
      rw [if_pos lt]
    have later : ∀ d ∈ rest, (built.set! c none)[d]? = some (some (finished d)) := by
      intro d mem
      have ne : c ≠ d := fun same => new (same ▸ mem)
      rw [next, if_neg ne, there d (List.mem_cons_of_mem c mem)]
    obtain ⟨left, taken, rest'⟩ := ih once later
    refine ⟨left, ?_, fun id => ?_⟩
    · rw [takeAll, first]
      simp only [taken, List.map_cons]
    · rw [rest', next]
      by_cases same : c = id
      · simp [same]
      · simp [same, Ne.symm same]

/-- What has been finished once the nodes from a number on have been swept: those whose parents have not
been. -/
def Swept (t : Tree) (k : Nat) (built : Array (Option Nested)) : Prop :=
  ∀ id, id < t.size → built[id]? =
    some (if k ≤ id ∧ (t.parent? id).all (· < k) then some (t.nest id) else none)

/-- One more node finds all its children finished. -/
theorem Swept.step (linked : t.Linked) {k : Nat} {n : TreeNode} (found : t.node? k = some n)
    (swept : Swept t (k + 1) built) :
    ∃ left, takeAll n.children built = (n.children.map t.nest, left) ∧
      Swept t k (left.set! k (some (ofNode n (n.children.map t.nest)))) := by
  have lt := Tree.lt_size_of_node? found
  have parents : ∀ id, id ∈ n.children ↔ t.parent? id = some k := fun id => by
    rw [← Tree.childIds_of_node? found, linked.mem_childIds_iff]
  have once : n.children.Nodup := Tree.childIds_of_node? found ▸ linked.nodup_childIds k
  -- children come behind their parent, so the sweep has finished them
  have there : ∀ c ∈ n.children, built[c]? = some (some (t.nest c)) := by
    intro c mem
    have parent := (parents c).mp mem
    have less : k < c := linked.grounded c k parent
    rw [swept c (Tree.lt_size_of_parent? parent), parent]
    exact congrArg some (if_pos ⟨less, decide_eq_true (Nat.lt_succ_self k)⟩)
  obtain ⟨left, taken, rest⟩ := takeAll_eq once there
  refine ⟨left, taken, fun id bound => ?_⟩
  have notOwn : k ∉ n.children := fun mem =>
    Nat.lt_irrefl k (linked.grounded k k ((parents k).mp mem))
  have inside : k < left.size := by
    have here := rest k
    rw [if_neg notOwn, swept k lt] at here
    exact (Array.getElem?_eq_some_iff.mp here).1
  rw [Array.set!_eq_setIfInBounds, Array.getElem?_setIfInBounds]
  by_cases same : k = id
  · subst same
    have above : (t.parent? k).all (· < k) = true := by
      cases parent : t.parent? k with
      | none => rfl
      | some p => exact decide_eq_true (linked.grounded k p parent)
    rw [if_pos rfl, if_pos inside, if_pos ⟨Nat.le_refl k, above⟩, linked.nest_eq found]
  · rw [if_neg same, rest id, swept id bound]
    by_cases child : id ∈ n.children
    · have parent := (parents id).mp child
      simp [child, parent]
    · -- another node is among the finished ones just if it was before
      rw [if_neg child]
      congr 1
      refine if_congr ?_ rfl rfl
      have other : ∀ p, t.parent? id = some p → (p < k + 1 ↔ p < k) := by
        intro p parent
        have ne : p ≠ k := fun own => child ((parents id).mpr (own ▸ parent))
        exact ⟨fun le => Nat.lt_of_le_of_ne (Nat.le_of_lt_succ le) ne, Nat.lt_succ_of_lt⟩
      refine and_congr ⟨Nat.le_of_succ_le, fun le => Nat.lt_of_le_of_ne le same⟩ ?_
      cases parent : t.parent? id with
      | none => rfl
      | some p => simp only [Option.all_some, decide_eq_true_eq, other p parent]

/-- A sweep from the last node on nests what it has passed, by induction on how far it is. -/
theorem swept_sweep (linked : t.Linked) {k : Nat} (le : k ≤ t.size) (swept : Swept t k built) :
    Swept t 0 (sweep t k built) := by
  induction k generalizing built with
  | zero => exact swept
  | succ k ih =>
    obtain ⟨n, found⟩ := Tree.exists_node? le
    obtain ⟨left, taken, next⟩ := Swept.step linked found swept
    rw [sweep, found]
    simp only [taken]
    exact ih (Nat.le_of_succ_le le) next

/-- The nested form of a tree is what is read from its root on. -/
theorem ofTree_eq (linked : t.Linked) : ofTree t = t.nest 0 := by
  have start : Swept t t.size (Array.replicate t.size none) := by
    intro id lt
    rw [Array.getElem?_replicate, if_pos lt, if_neg fun done => Nat.not_lt.mpr done.1 lt]
  have root := swept_sweep linked (Nat.le_refl _) start 0 linked.nonempty
  rw [linked.rooted] at root
  rw [ofTree, root]
  simp only [Nat.le_refl, Option.all_none, and_self, if_true]

end Nested

namespace Tree

/-- Additions to a root below nodes that are there are all carried out, and all views of the tree that
comes of them agree. -/
theorem views_of_addAll? (root : Component) (adds : List Addition)
    (within : Addition.Within 1 adds) :
    ∃ t, (ofRoot root).addAll? adds = some t ∧ t.size = adds.length + 1 ∧
      -- the visit meets each node once, behind those above it and behind its elder siblings
      t.Visits [0] t.preorder ∧ t.preorder.Perm (List.range t.size) ∧
      (∀ d < t.size, ∀ a ∈ (t.ancestors d).tail, [a, d].Sublist t.preorder) ∧
      (∀ p, t.childIds p = (List.range t.size).filter (fun id => t.parent? id = some p) ∧
        (t.childIds p).Sublist t.preorder) ∧
      -- the nested form is what is read from the root on
      (∀ id n, t.node? id = some n → t.nest id = .ofNode n (n.children.map t.nest)) ∧
      Nested.ofTree t = t.nest 0 ∧
      (Nested.ofTree t).outline 0 = t.preorder.map t.entry ∧
      (Nested.ofTree t).count = t.size ∧
      t.maxDepth = (Nested.ofTree t).height ∧
      t.display = String.join (((Nested.ofTree t).outline 0).map Nested.Entry.line) := by
  obtain ⟨t, added, linked, size⟩ := (linked_ofRoot root).exists_addAll? within
  have nested := Nested.ofTree_eq linked
  have count : (t.nest 0).count = t.size := by
    rw [Nested.count_eq_size, ← Nested.length_outline 0, linked.outline_root, List.length_map,
      linked.preorder_perm.length_eq, List.length_range]
  have visits := linked.preorder_eq_listing ▸ linked.visits_root
  refine ⟨t, added, size.trans (Nat.add_comm 1 _), visits, linked.preorder_perm,
    fun _ lt _ above => linked.pair_sublist_preorder lt above,
    fun p => ⟨linked.listed p, linked.childIds_sublist_preorder p⟩,
    fun _ _ found => linked.nest_eq found, nested, ?_⟩
  rw [nested]
  exact ⟨linked.outline_root, count, linked.maxDepth_eq, linked.display_eq⟩

/-- A page with two imports, of which the first has an import of its own. -/
theorem views_of_addAll?_sample :
    Addition.Within 1 Addition.sample ∧ ∃ t, (ofRoot .sample).addAll? Addition.sample = some t ∧
      Nested.ofTree t = t.nest 0 ∧ (Nested.ofTree t).count = t.size ∧
      t.maxDepth = (Nested.ofTree t).height ∧ t.preorder = [0, 1, 2, 3] ∧
      t.display = "/\n\t./a\n\t\t./page\n\t./b\n" := by
  obtain ⟨t, added, -, -, -, -, -, -, nested, -, count, depth, -⟩ :=
    views_of_addAll? .sample Addition.sample Addition.within_sample
  refine ⟨Addition.within_sample, t, added, nested, count, depth, ?_⟩
  cases added
  exact ⟨by decide, by decide⟩

end Tree

end RouteTrees
