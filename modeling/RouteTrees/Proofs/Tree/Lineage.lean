import RouteTrees.Proofs.Tree.Preorder

/-!
# Where nodes stand

On the way from the root to a node there is one node at each depth, down to that of the node itself. What is
below a node stands behind it without a gap in the order of the visit, and is deeper than it is, so the
parent of a node is the last before it that is less deep.
-/

namespace RouteTrees.Tree

variable {t : Tree} {id p a : NodeId} {depth : Nat}

/-- Whether a node is the last child of its parent. -/
def isLast (t : Tree) (id : NodeId) : Bool :=
  (t.parent? id).any fun p => (t.childIds p).getLast? = some id

/-- The node at a depth on the way from the root to a node. -/
def ancestorAt? (t : Tree) (id : NodeId) (depth : Nat) : Option NodeId :=
  (t.ancestors id).find? fun a => t.depthOf a = depth

theorem isLast_eq (parent : t.parent? id = some p) :
    t.isLast id = decide ((t.childIds p).getLast? = some id) := by
  rw [isLast, parent, Option.any_some]

namespace Linked

/-! ## Depths on the way up -/

theorem depthOf_zero (linked : t.Linked) : t.depthOf 0 = 0 := by
  rw [depthOf, linked.ancestors_zero, List.length_singleton]

/-- A node that is above another is less deep. -/
theorem depthOf_lt (linked : t.Linked) (mem : a ∈ t.ancestors id) (ne : a ≠ id) (lt : id < t.size) :
    t.depthOf a < t.depthOf id := by
  rcases Nat.eq_zero_or_pos id with rfl | pos
  · rw [linked.ancestors_zero, List.mem_singleton] at mem
    exact absurd mem ne
  · obtain ⟨p, less, parent⟩ := linked.below id pos lt
    rw [linked.ancestors_eq parent, List.mem_cons] at mem
    have above := linked.suffix_ancestors (mem.resolve_left ne) (Nat.lt_trans less lt)
    calc t.depthOf a
        ≤ t.depthOf p := Nat.sub_le_sub_right above.length_le 1
      _ < t.depthOf id := linked.depthOf_eq parent ▸ Nat.lt_succ_self _

/-- The nodes on a way are told apart by their depths. -/
theorem ancestorAt?_depthOf (linked : t.Linked) (mem : a ∈ t.ancestors id) (lt : id < t.size) :
    t.ancestorAt? id (t.depthOf a) = some a := by
  induction id, lt using linked.induct_from_root with
  | root =>
    rw [linked.ancestors_zero, List.mem_singleton] at mem
    rw [ancestorAt?, linked.ancestors_zero, mem, List.find?_singleton, if_pos (decide_eq_true rfl)]
  | child id p lt _ parent ih =>
    rcases eq_or_ne a id with rfl | ne
    · rw [ancestorAt?, linked.ancestors_eq parent]
      exact List.find?_cons_of_pos (decide_eq_true rfl)
    · have deeper : decide (t.depthOf id = t.depthOf a) = false :=
        decide_eq_false (Nat.ne_of_gt (linked.depthOf_lt mem ne lt))
      rw [linked.ancestors_eq parent, List.mem_cons] at mem
      rw [ancestorAt?, linked.ancestors_eq parent, List.find?_cons, deeper]
      exact ih (mem.resolve_left ne)

/-- There is a node at each depth on the way to a node. -/
theorem exists_depthOf (linked : t.Linked) (lt : id < t.size) (le : depth ≤ t.depthOf id) :
    ∃ a ∈ t.ancestors id, t.depthOf a = depth := by
  induction id, lt using linked.induct_from_root with
  | root =>
    rw [linked.depthOf_zero, Nat.le_zero] at le
    rw [linked.ancestors_zero, le]
    exact ⟨0, List.mem_singleton_self 0, linked.depthOf_zero⟩
  | child id p lt _ parent ih =>
    rcases Nat.lt_or_eq_of_le le with less | same
    · rw [linked.depthOf_eq parent] at less
      obtain ⟨a, above, here⟩ := ih (Nat.le_of_lt_succ less)
      rw [linked.ancestors_eq parent]
      exact ⟨a, List.mem_cons_of_mem id above, here⟩
    · exact ⟨id, linked.self_mem_ancestors lt, same.symm⟩

/-! ## The order of the visit -/

/-- The preorder lists no node twice. -/
theorem nodup_preorder (linked : t.Linked) : t.preorder.Nodup :=
  linked.preorder_perm.nodup_iff.mpr List.nodup_range

/-- The root is visited first, and then each other node. -/
theorem exists_preorder (linked : t.Linked) :
    ∃ others, t.preorder = 0 :: others ∧ ∀ id ∈ others, 0 < id ∧ id < t.size := by
  have whole : t.preorder = 0 :: (t.childIds 0).flatMap t.listing := by
    rw [linked.preorder_eq_listing, linked.listing_eq]
  refine ⟨_, whole, fun id mem => ?_⟩
  have once := linked.nodup_preorder
  have inside : id ∈ t.preorder := whole ▸ List.mem_cons_of_mem 0 mem
  rw [whole, List.nodup_cons] at once
  rw [linked.preorder_perm.mem_iff, List.mem_range] at inside
  exact ⟨Nat.pos_of_ne_zero fun zero => once.1 (zero ▸ mem), inside⟩

/-- What is below a child stands together in what is below its parent. -/
theorem infix_listing_of_mem_childIds (linked : t.Linked) (child : a ∈ t.childIds p) :
    t.listing a <:+: t.listing p := by
  obtain ⟨before, after, whole⟩ := List.append_of_mem child
  rw [linked.listing_eq p, whole, List.flatMap_append, List.flatMap_cons, ← List.append_assoc]
  exact List.infix_cons (List.infix_append _ _ _)

/-- What is below a node, and that node, are visited one after the other. -/
theorem infix_preorder (linked : t.Linked) (lt : id < t.size) : t.listing id <:+: t.preorder := by
  rw [linked.preorder_eq_listing]
  induction id, lt using linked.induct_from_root with
  | root => exact List.infix_rfl
  | child id p _ _ parent ih =>
    exact (linked.infix_listing_of_mem_childIds (linked.mem_childIds_iff.mpr parent)).trans ih

/-- Between a node and one of its children only such nodes are visited as are deeper than it. -/
theorem exists_preorder_eq (linked : t.Linked) (parent : t.parent? id = some p) :
    ∃ before between after, t.preorder = before ++ p :: (between ++ id :: after) ∧
      ∀ a ∈ between, t.depthOf p < t.depthOf a := by
  have lt := lt_size_of_parent? parent
  have ltP : p < t.size := Nat.lt_trans (linked.grounded id p parent) lt
  obtain ⟨before, behind, whole⟩ := linked.infix_preorder ltP
  obtain ⟨listed, listing⟩ : ∃ listed, t.listing p = p :: listed := ⟨_, linked.listing_eq p⟩
  have mem : id ∈ listed := by
    have inside := (linked.mem_listing_iff ltP lt).mpr (linked.parent_mem_ancestors parent)
    rw [listing, List.mem_cons] at inside
    exact inside.resolve_left (Nat.ne_of_gt (linked.grounded id p parent))
  obtain ⟨between, after, split⟩ := List.append_of_mem mem
  refine ⟨before, between, after ++ behind, ?_, fun a inside => ?_⟩
  · rw [← whole, listing, split]
    simp
  · have later : a ∈ listed := split ▸ List.mem_append_left _ inside
    have once : p ∉ listed := (List.nodup_cons.mp (listing ▸ linked.nodup_listing ltP)).1
    have inListing : a ∈ t.listing p := listing ▸ List.mem_cons_of_mem p later
    have ltA := linked.lt_size_of_mem_listing ltP inListing
    have above := (linked.mem_listing_iff ltP ltA).mp inListing
    exact linked.depthOf_lt above (fun same => once (same ▸ later)) ltA

end Linked

end RouteTrees.Tree
