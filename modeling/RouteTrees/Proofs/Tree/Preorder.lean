import Mathlib.Data.List.Flatten
import Mathlib.Data.List.Perm.Basic
import RouteTrees.Proofs.Tree.Linked

/-!
# Visiting the nodes of a tree

The order in which a stack visits the nodes of a table is, in a tree, that of the recursive listing: a node,
then for each of its children in turn what is below it. So each node is visited once, behind all that are
above it, and the visit ends by itself, not because its steps are counted.

All of this rests on two ways up that meet: what is above one node is the end of what is above any node
below it, so a node is below at most one of two siblings.
-/

namespace RouteTrees.Tree

variable {t u : Tree} {id p a b c d : NodeId} {stack order : List NodeId}

/-! ## Above and below -/

namespace Linked

theorem self_mem_ancestors (linked : t.Linked) (lt : id < t.size) : id ∈ t.ancestors id := by
  rw [linked.grounded.ancestors_eq lt]
  exact List.mem_cons_self

/-- The way up from a node that is above another is the end of the way up from that one. -/
theorem suffix_ancestors (linked : t.Linked) (mem : b ∈ t.ancestors a) (lt : a < t.size) :
    t.ancestors b <:+ t.ancestors a := by
  induction a, lt using linked.induct_from_root with
  | root =>
    rw [linked.ancestors_zero, List.mem_singleton] at mem
    subst mem
    exact List.suffix_rfl
  | child a p _ _ parent ih =>
    rw [linked.ancestors_eq parent, List.mem_cons] at mem
    rcases mem with rfl | above
    · exact List.suffix_rfl
    · rw [linked.ancestors_eq parent]
      exact (ih above).trans (List.suffix_cons a _)

theorem lt_size_of_mem_ancestors (linked : t.Linked) (mem : b ∈ t.ancestors a) (lt : a < t.size) :
    b < t.size :=
  Nat.lt_of_le_of_lt (linked.grounded.le_of_mem_climb mem) lt

/-- What is above a node that is above another is above that other. -/
theorem mem_ancestors_trans (linked : t.Linked) (mem : c ∈ t.ancestors b)
    (mem' : b ∈ t.ancestors a) (lt : a < t.size) : c ∈ t.ancestors a :=
  (linked.suffix_ancestors mem' lt).subset mem

theorem parent_mem_ancestors (linked : t.Linked) (parent : t.parent? id = some p) :
    p ∈ t.ancestors id := by
  rw [linked.ancestors_eq parent]
  have lt := Nat.lt_trans (linked.grounded id p parent) (lt_size_of_parent? parent)
  exact List.mem_cons_of_mem _ (linked.self_mem_ancestors lt)

/-- Of two nodes above a third, one is above the other. -/
theorem mem_ancestors_or (linked : t.Linked) (memB : b ∈ t.ancestors a) (memC : c ∈ t.ancestors a)
    (lt : a < t.size) : b ∈ t.ancestors c ∨ c ∈ t.ancestors b := by
  have hereB := linked.self_mem_ancestors (linked.lt_size_of_mem_ancestors memB lt)
  have hereC := linked.self_mem_ancestors (linked.lt_size_of_mem_ancestors memC lt)
  rcases List.suffix_or_suffix_of_suffix (linked.suffix_ancestors memB lt)
    (linked.suffix_ancestors memC lt) with suffix | suffix
  · exact .inl (suffix.subset hereB)
  · exact .inr (suffix.subset hereC)

/-- A sibling of a node is not above it. -/
theorem not_mem_ancestors_of_sibling (linked : t.Linked) (parentB : t.parent? b = some p)
    (parentC : t.parent? c = some p) (ne : b ≠ c) : b ∉ t.ancestors c := by
  intro mem
  rw [linked.ancestors_eq parentC, List.mem_cons] at mem
  rcases mem with same | above
  · exact ne same
  · have le : b ≤ p := linked.grounded.le_of_mem_climb above
    exact absurd (linked.grounded b p parentB) (Nat.not_lt.mpr le)

/-- A node that is above another is that one itself or has a child that is above it. -/
theorem eq_or_exists_child (linked : t.Linked) (mem : b ∈ t.ancestors a) (lt : a < t.size) :
    a = b ∨ ∃ c ∈ t.childIds b, c ∈ t.ancestors a := by
  induction a, lt using linked.induct_from_root with
  | root =>
    rw [linked.ancestors_zero, List.mem_singleton] at mem
    exact .inl mem.symm
  | child a p lt _ parent ih =>
    rw [linked.ancestors_eq parent, List.mem_cons] at mem
    rcases mem with rfl | above
    · exact .inl rfl
    · have self := linked.self_mem_ancestors lt
      rcases ih above with rfl | ⟨c, child, mem⟩
      · exact .inr ⟨a, linked.mem_childIds_iff.mpr parent, self⟩
      · rw [linked.ancestors_eq parent]
        exact .inr ⟨c, child, List.mem_cons_of_mem a mem⟩

/-- What holds of a node if it holds of its children holds of every node. By induction on how many nodes
come behind it. -/
theorem induct_from_leaves {motive : ∀ id, id < t.size → Prop} (linked : t.Linked)
    (node : ∀ id lt, (∀ c (child : c ∈ t.childIds id), motive c (linked.order child).2) →
      motive id lt) (id : NodeId) (lt : id < t.size) : motive id lt := by
  induction behind : t.size - id using Nat.strongRecOn generalizing id with
  | ind k ih =>
    subst behind
    refine node id lt fun c child => ?_
    obtain ⟨less, bound⟩ := linked.order child
    exact ih (t.size - c) (Nat.sub_lt_sub_left lt less) c bound rfl

end Linked

/-! ## The listing -/

/-- A node and what is below it, child by child. A child that does not come behind its parent in the table
is passed over. -/
def listing (t : Tree) (id : NodeId) : List NodeId :=
  id :: (t.childIds id).flatMap fun child =>
    if id < child ∧ child < t.size then t.listing child else []
termination_by t.size - id
decreasing_by
  next order => exact Nat.sub_lt_sub_left (Nat.lt_trans order.1 order.2) order.1

namespace Linked

/-- What is below a node is listed child by child. -/
theorem listing_eq (linked : t.Linked) (id : NodeId) :
    t.listing id = id :: (t.childIds id).flatMap t.listing := by
  rw [listing]
  congr 1
  exact List.flatMap_congr fun child mem => if_pos (linked.order mem)

theorem self_mem_listing (linked : t.Linked) (id : NodeId) : id ∈ t.listing id := by
  rw [linked.listing_eq]
  exact List.mem_cons_self

/-- The listing of a node holds all that it is above. -/
theorem mem_listing_iff (linked : t.Linked) (ltB : b < t.size) (lt : a < t.size) :
    a ∈ t.listing b ↔ b ∈ t.ancestors a := by
  induction b, ltB using linked.induct_from_leaves with
  | node b _ ih =>
    rw [linked.listing_eq, List.mem_cons, List.mem_flatMap]
    constructor
    · rintro (rfl | ⟨c, child, below⟩)
      · exact linked.self_mem_ancestors lt
      · have parent := linked.mem_childIds_iff.mp child
        have mem := (ih c child).mp below
        exact linked.mem_ancestors_trans (linked.parent_mem_ancestors parent) mem lt
    · intro mem
      refine (linked.eq_or_exists_child mem lt).imp_right fun ⟨c, child, above⟩ => ?_
      exact ⟨c, child, (ih c child).mpr above⟩

theorem lt_size_of_mem_listing (linked : t.Linked) (ltB : b < t.size) (mem : a ∈ t.listing b) :
    a < t.size := by
  induction b, ltB using linked.induct_from_leaves with
  | node b lt ih =>
    rw [linked.listing_eq, List.mem_cons, List.mem_flatMap] at mem
    rcases mem with rfl | ⟨c, child, below⟩
    · exact lt
    · exact ih c child below

/-- No node is listed twice: a node is below at most one of two siblings, and not above itself. -/
theorem nodup_listing (linked : t.Linked) (lt : id < t.size) : (t.listing id).Nodup := by
  induction id, lt using linked.induct_from_leaves with
  | node id lt ih =>
    have bound : ∀ c ∈ t.childIds id, ∀ a ∈ t.listing c, a < t.size := fun c child a below =>
      linked.lt_size_of_mem_listing (linked.order child).2 below
    rw [linked.listing_eq, List.nodup_cons, List.nodup_flatMap]
    refine ⟨fun mem => ?_, ih, (linked.nodup_childIds id).pairwise_of_forall_ne ?_⟩
    · obtain ⟨c, child, below⟩ := List.mem_flatMap.mp mem
      have above := (linked.mem_listing_iff (linked.order child).2 lt).mp below
      have le : c ≤ id := linked.grounded.le_of_mem_climb above
      exact absurd (linked.order child).1 (Nat.not_lt.mpr le)
    · intro b childB c childC ne a belowB belowC
      have lt' := bound b childB a belowB
      have parentB := linked.mem_childIds_iff.mp childB
      have parentC := linked.mem_childIds_iff.mp childC
      have aboveB := (linked.mem_listing_iff (linked.order childB).2 lt').mp belowB
      have aboveC := (linked.mem_listing_iff (linked.order childC).2 lt').mp belowC
      rcases linked.mem_ancestors_or aboveB aboveC lt' with mem | mem
      · exact linked.not_mem_ancestors_of_sibling parentB parentC ne mem
      · exact linked.not_mem_ancestors_of_sibling parentC parentB (Ne.symm ne) mem

/-- From the root all nodes are listed. -/
theorem listing_perm (linked : t.Linked) : (t.listing 0).Perm (List.range t.size) := by
  have nodup := linked.nodup_listing linked.nonempty
  refine (List.perm_ext_iff_of_nodup nodup List.nodup_range).mpr fun a => ?_
  rw [List.mem_range]
  refine ⟨linked.lt_size_of_mem_listing linked.nonempty, fun lt => ?_⟩
  have root := List.mem_of_getLast? (linked.climbs lt).2
  exact (linked.mem_listing_iff linked.nonempty lt).mpr root

/-- What is below a child is listed in what is below its parent. -/
theorem sublist_listing_of_mem_childIds (linked : t.Linked) (child : c ∈ t.childIds p) :
    (t.listing c).Sublist (t.listing p) := by
  have one : [c].Sublist (t.childIds p) := List.singleton_sublist.mpr child
  have all := one.flatMap t.listing
  rw [List.flatMap_singleton] at all
  rw [linked.listing_eq p]
  exact all.cons p

/-- What is listed from a node on is listed in the same order from every node above it on. -/
theorem sublist_listing (linked : t.Linked) (mem : b ∈ t.ancestors a) (lt : a < t.size) :
    (t.listing a).Sublist (t.listing b) := by
  induction a, lt using linked.induct_from_root with
  | root =>
    rw [linked.ancestors_zero, List.mem_singleton] at mem
    rw [mem]
  | child a p _ _ parent ih =>
    rw [linked.ancestors_eq parent, List.mem_cons] at mem
    rcases mem with rfl | above
    · exact List.Sublist.refl _
    · have first := linked.sublist_listing_of_mem_childIds (linked.mem_childIds_iff.mpr parent)
      exact first.trans (ih above)

end Linked

/-! ## The visit -/

/-- Taking a node from a stack and putting its children in its place, again and again until the stack is
empty, and the nodes in the order in which they were taken. -/
inductive Visits (t : Tree) : List NodeId → List NodeId → Prop where
  | done : Visits t [] []
  | next {id : NodeId} {stack order : List NodeId} (rest : Visits t (t.childIds id ++ stack) order) :
      Visits t (id :: stack) (id :: order)

/-- Counting the steps of a visit changes nothing as long as the count is enough. -/
theorem Visits.visit_eq (visits : t.Visits stack order) {n : Nat} (enough : order.length ≤ n) :
    t.visit n stack = order := by
  induction visits generalizing n with
  | done => cases n <;> rfl
  | next _ ih =>
    cases n with
    | zero => cases enough
    | succ n =>
      rw [visit, ih (Nat.le_of_succ_le_succ enough)]

/-- Nodes that are each visited with a list of their own are visited with all of these, one after the
other. -/
theorem Visits.flatMap {below : NodeId → List NodeId} {ids : List NodeId}
    (each : ∀ c ∈ ids, ∀ {stack order}, t.Visits stack order →
      t.Visits (c :: stack) (below c ++ order))
    (rest : t.Visits stack order) : t.Visits (ids ++ stack) (ids.flatMap below ++ order) := by
  induction ids with
  | nil => exact rest
  | cons c later ih =>
    rw [List.cons_append, List.flatMap_cons, List.append_assoc]
    exact each c List.mem_cons_self (ih fun d mem => each d (List.mem_cons_of_mem c mem))

namespace Linked

/-- A node on the stack is visited with all that is below it before the rest of the stack. -/
theorem visits_listing (linked : t.Linked) (lt : id < t.size) (rest : t.Visits stack order) :
    t.Visits (id :: stack) (t.listing id ++ order) := by
  induction id, lt using linked.induct_from_leaves generalizing stack order with
  | node id _ ih =>
    rw [linked.listing_eq, List.cons_append]
    exact .next (.flatMap ih rest)

/-- From the root, everything below the root is visited. -/
theorem visits_root (linked : t.Linked) : t.Visits [0] (t.listing 0) := by
  have visits := linked.visits_listing linked.nonempty .done
  rwa [List.append_nil] at visits

/-- The preorder lists what is below the root. -/
theorem preorder_eq_listing (linked : t.Linked) : t.preorder = t.listing 0 := by
  have length := linked.listing_perm.length_eq
  rw [List.length_range] at length
  exact linked.visits_root.visit_eq (Nat.le_of_eq length)

/-- Every node is visited once. -/
theorem preorder_perm (linked : t.Linked) : t.preorder.Perm (List.range t.size) := by
  rw [linked.preorder_eq_listing]
  exact linked.listing_perm

theorem sublist_preorder (linked : t.Linked) (lt : id < t.size) :
    (t.listing id).Sublist t.preorder := by
  rw [linked.preorder_eq_listing]
  exact linked.sublist_listing (List.mem_of_getLast? (linked.climbs lt).2) lt

/-- A node is visited before all that are below it. -/
theorem pair_sublist_preorder (linked : t.Linked) (lt : d < t.size)
    (above : a ∈ (t.ancestors d).tail) : [a, d].Sublist t.preorder := by
  have mem : a ∈ t.ancestors d := List.mem_of_mem_tail above
  have lt' := linked.lt_size_of_mem_ancestors mem lt
  have ne : d ≠ a := by
    rintro rfl
    rcases Nat.eq_zero_or_pos d with zero | pos
    · subst zero
      rw [linked.ancestors_zero] at above
      cases above
    · obtain ⟨p, less, parent⟩ := linked.below d pos lt
      rw [linked.ancestors_eq parent, List.tail_cons] at above
      exact absurd less (Nat.not_lt.mpr (linked.grounded.le_of_mem_climb above))
  have below := (linked.mem_listing_iff lt' lt).mpr mem
  refine List.Sublist.trans ?_ (linked.sublist_preorder lt')
  rw [linked.listing_eq, List.mem_cons] at below
  rw [linked.listing_eq]
  exact (List.singleton_sublist.mpr (below.resolve_left ne)).cons_cons a

/-- Siblings are visited in the order in which they came. -/
theorem childIds_sublist_preorder (linked : t.Linked) (p : NodeId) :
    (t.childIds p).Sublist t.preorder := by
  rcases Nat.lt_or_ge p t.size with lt | ge
  · have heads : ((t.childIds p).flatMap fun c => [c]).Sublist ((t.childIds p).flatMap t.listing) :=
      List.Sublist.flatMap_right _ fun c _ =>
        List.singleton_sublist.mpr (linked.self_mem_listing c)
    rw [List.flatMap_singleton'] at heads
    refine List.Sublist.trans ?_ (linked.sublist_preorder lt)
    rw [linked.listing_eq p]
    exact heads.cons p
  · rw [childIds_of_size_le ge]
    exact List.nil_sublist _

end Linked

/-! ## Trees from additions -/

/-- Of the sequences of additions that are carried out, those below nodes that are there are the ones that
give a tree: every node but the root has a parent before it and is listed once, among the children of that
parent; the way up from every node ends at the root; and a visit ends, having met every node once. -/
theorem within_iff_of_addAll? {root : Component} {adds : List Addition} {t : Tree}
    (added : (ofRoot root).addAll? adds = some t) :
    Addition.Within 1 adds ↔
      (∀ id, 0 < id → id < t.size → ∃ p, p < id ∧ t.parent? id = some p ∧
        ∀ q, (t.childIds q).count id = if q = p then 1 else 0) ∧
      (∀ id, id < t.size → t.Climbs id (t.ancestors id) ∧ (t.ancestors id).getLast? = some 0) ∧
      t.Visits [0] t.preorder ∧ t.preorder.Perm (List.range t.size) := by
  constructor
  · intro within
    obtain ⟨u, added', linked, -⟩ := (linked_ofRoot root).exists_addAll? within
    cases added.symm.trans added'
    refine ⟨fun id pos lt => ?_, fun id lt => linked.climbs lt, ?_, linked.preorder_perm⟩
    · obtain ⟨p, less, parent⟩ := linked.below id pos lt
      exact ⟨p, less, parent, linked.count_childIds parent⟩
    · rw [linked.preorder_eq_listing]
      exact linked.visits_root
  · rintro ⟨below, -⟩
    have rooted : t.parent? 0 = none := (extends_addAll? added).parent? Nat.zero_lt_one
    have grounded : t.Grounded := by
      intro id p parent
      rcases Nat.eq_zero_or_pos id with zero | pos
      · rw [zero, rooted] at parent
        cases parent
      · obtain ⟨q, less, parent', -⟩ := below id pos (lt_size_of_parent? parent)
        cases parent.symm.trans parent'
        exact less
    exact grounded.within added

/-- A page with two imports, of which the first has an import of its own. -/
theorem within_iff_of_addAll?_sample :
    ∃ t, (ofRoot .sample).addAll? Addition.sample = some t ∧ Addition.Within 1 Addition.sample ∧
      (∀ id, id < t.size → t.Climbs id (t.ancestors id) ∧ (t.ancestors id).getLast? = some 0) ∧
      t.preorder.Perm (List.range t.size) := by
  obtain ⟨t, added, -⟩ := (linked_ofRoot .sample).exists_addAll? Addition.within_sample
  have tree := (within_iff_of_addAll? added).mp Addition.within_sample
  exact ⟨t, added, Addition.within_sample, tree.2.1, tree.2.2.2⟩

/-- A node may be added to a root below the number that it is about to get. It is its own parent and its
own child, no way up from it ends, and a visit never comes to it. -/
theorem add?_own_number :
    ∃ t, (ofRoot .sample).add? 1 ⟨"./a", ⟨"/a.ts"⟩, none⟩ false = some t ∧
      t.size = 2 ∧ t.parent? 1 = some 1 ∧ t.childIds 1 = [1] ∧
      (∀ way, ¬t.Climbs 1 way) ∧ t.Visits [0] [0] := by
  refine ⟨_, rfl, rfl, rfl, rfl, not_climbs_of_own_parent rfl, .next .done⟩

end RouteTrees.Tree
