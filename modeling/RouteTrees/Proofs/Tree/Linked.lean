import Mathlib.Data.List.Nodup
import RouteTrees.Tree.Ancestors

/-!
# Tables that are trees

A table of nodes is a tree if every node but the root has its parent before it, and if each node has for
its children just those that have it for their parent, in the order in which they came. Adding a node
below one that is in the table keeps a tree a tree, and so does finding out a kind.

A table lets a node also be added below the number that it is about to get. Such a node is its own parent
and its own child, and no way up from it comes to an end: of all sequences of additions, those that refer
to nodes that are there are just the ones that give a tree.
-/

namespace RouteTrees

/-- A component that is to be added, and where. -/
structure Addition where
  parent : NodeId
  component : Component
  cycle : Bool := false
deriving DecidableEq, Repr

/-- Whether each of some additions is below a node that is there by then, if so many are there at
first. -/
def Addition.Within (n : Nat) (adds : List Addition) : Prop :=
  ∀ i a, adds[i]? = some a → a.parent < n + i

namespace Addition

variable {n : Nat} {a : Addition} {rest : List Addition}

theorem within_nil : Within n [] := fun _ _ found => nomatch found

/-- Additions are within bounds if the first is, and the others are with one node more. -/
theorem within_cons_iff : Within n (a :: rest) ↔ a.parent < n ∧ Within (n + 1) rest := by
  constructor
  · intro within
    refine ⟨within 0 a rfl, fun i b found => ?_⟩
    have := within (i + 1) b found
    omega
  · rintro ⟨first, later⟩ i b found
    cases i with
    | zero =>
      cases found
      exact first
    | succ i =>
      have := later i b found
      omega

/-- Two imports of a page, of which the first has an import of its own, which closes a cycle. -/
def sample : List Addition :=
  [⟨0, ⟨"./a", ⟨"/a.ts"⟩, some .client⟩, false⟩, ⟨1, ⟨"./page", ⟨"/page.ts"⟩, none⟩, true⟩,
    ⟨0, ⟨"./b", ⟨"/b.ts"⟩, some .server⟩, false⟩]

/-- The sample additions are within bounds. -/
theorem within_sample : Within 1 sample := by
  simp only [sample, within_cons_iff]
  exact ⟨by decide, by decide, by decide, within_nil⟩

end Addition

/-- A page of a server, as the root of a tree. -/
def Component.sample : Component := ⟨"/", ⟨"/page.ts"⟩, some .server⟩

namespace Tree

/-- Adds components one after the other, unless one is refused. -/
def addAll? (t : Tree) (adds : List Addition) : Option Tree :=
  adds.foldlM (fun u a => u.add? a.parent a.component a.cycle) t

variable {t u : Tree} {id p q : NodeId} {c : Component} {cycle : Bool} {adds : List Addition}

/-! ## Parents and children -/

theorem parent?_of_size_le (le : t.size ≤ id) : t.parent? id = none := by
  cases parent : t.parent? id with
  | none => rfl
  | some p => exact absurd (lt_size_of_parent? parent) (Nat.not_lt.mpr le)

theorem childIds_of_node? {n : TreeNode} (found : t.node? id = some n) :
    t.childIds id = n.children := by
  simp only [childIds, found]

theorem childIds_of_size_le (le : t.size ≤ id) : t.childIds id = [] := by
  have missing : t.node? id = none := Array.getElem?_eq_none le
  simp only [childIds, missing]

/-- A new node has the parent that it was added to. -/
theorem parent?_add (lt : p < t.size) (id : NodeId) :
    (t.add p c cycle).parent? id = if id = t.size then some p else t.parent? id := by
  split
  · next new => rw [new, parent?, node?_add_new lt, Option.bind_some]
  · next old =>
    rcases Nat.lt_or_ge id t.size with less | ge
    · exact extends_add.parent? less
    · have beyond : (t.add p c cycle).size ≤ id :=
        size_add ▸ Nat.lt_of_le_of_ne ge (Ne.symm old)
      rw [parent?_of_size_le ge, parent?_of_size_le beyond]

/-- A new node is the last child of its parent. -/
theorem childIds_add (lt : p < t.size) (q : NodeId) :
    (t.add p c cycle).childIds q = if q = p then t.childIds q ++ [t.size] else t.childIds q := by
  split
  · next same =>
    subst same
    obtain ⟨n, found⟩ := exists_node? lt
    rw [childIds_of_node? (node?_add_parent found), childIds_of_node? found]
  · next other =>
    by_cases new : q = t.size
    · rw [new, childIds_of_node? (node?_add_new lt), childIds_of_size_le (Nat.le_refl _)]
    · rw [childIds, node?_add_other other new, childIds]

@[simp] theorem parent?_setKind (kind : Kind) (q : NodeId) :
    (t.setKind id kind).parent? q = t.parent? q := by
  rcases Nat.lt_or_ge q t.size with less | ge
  · exact (extends_setKind kind).parent? less
  · rw [parent?_of_size_le ge, parent?_of_size_le]
    rwa [size_setKind]

@[simp] theorem childIds_setKind (kind : Kind) (q : NodeId) :
    (t.setKind id kind).childIds q = t.childIds q := by
  by_cases same : q = id
  · subst same
    rcases Nat.lt_or_ge q t.size with less | ge
    · obtain ⟨n, found⟩ := exists_node? less
      rw [childIds_of_node? (node?_setKind_self found kind), childIds_of_node? found]
    · rw [childIds_of_size_le ge, childIds_of_size_le]
      rwa [size_setKind]
  · rw [childIds, node?_setKind_other same, childIds]

/-! ## Trees -/

/-- Whether a table of nodes is a tree with the first of them as its root. -/
structure Linked (t : Tree) : Prop where
  nonempty : 0 < t.size
  rooted : t.parent? 0 = none
  below : ∀ id, 0 < id → id < t.size → ∃ p, p < id ∧ t.parent? id = some p
  /-- Numbers are handed out in order, so this is also the order in which children came. -/
  listed : ∀ p, t.childIds p = (List.range t.size).filter fun id => t.parent? id = some p

/-- A tree of one node is linked. -/
theorem linked_ofRoot (root : Component) : (ofRoot root).Linked where
  nonempty := Nat.zero_lt_one
  rooted := rfl
  below id pos lt := absurd lt (Nat.not_lt.mpr pos)
  listed p := by
    have none : ((ofRoot root).parent? 0 = some p) = False := eq_false (nomatch ·)
    have single : List.range (ofRoot root).size = [0] := rfl
    rw [single, List.filter_cons]
    simp only [none, decide_false, Bool.false_eq_true, if_false, List.filter_nil]
    cases p with
    | zero => rfl
    | succ p => exact childIds_of_size_le (Nat.le_add_left 1 p)

namespace Linked

/-- Adding below a node that is there. -/
theorem add (linked : t.Linked) (lt : p < t.size) : (t.add p c cycle).Linked where
  nonempty := by
    rw [size_add]
    omega
  rooted := by
    rw [parent?_add lt, if_neg (Nat.ne_of_lt linked.nonempty)]
    exact linked.rooted
  below id pos bound := by
    rw [size_add] at bound
    rw [parent?_add lt]
    split
    · next new => exact ⟨p, new ▸ lt, rfl⟩
    · next old => exact linked.below id pos (Nat.lt_of_le_of_ne (Nat.le_of_lt_succ bound) old)
  listed q := by
    have old : ((List.range t.size).filter fun id => (t.add p c cycle).parent? id = some q) =
        t.childIds q := by
      rw [linked.listed q]
      refine List.filter_congr fun id mem => ?_
      rw [parent?_add lt, if_neg (Nat.ne_of_lt (List.mem_range.mp mem))]
    have new : (t.add p c cycle).parent? t.size = some p := by rw [parent?_add lt, if_pos rfl]
    rw [size_add, List.range_succ, List.filter_append, old, childIds_add lt, List.filter_cons, new]
    by_cases same : q = p
    · simp [same]
    · simp [same, Ne.symm same]

/-- Giving a node a kind leaves a tree linked. -/
theorem setKind (linked : t.Linked) (kind : Kind) : (t.setKind id kind).Linked where
  nonempty := (size_setKind (t := t) kind).symm ▸ linked.nonempty
  rooted := (parent?_setKind kind 0).trans linked.rooted
  below q pos lt := by
    rw [size_setKind] at lt
    rw [parent?_setKind]
    exact linked.below q pos lt
  listed q := by
    rw [childIds_setKind, linked.listed q, size_setKind]
    simp only [parent?_setKind]

/-- A linked tree is grounded. -/
theorem grounded (linked : t.Linked) : t.Grounded := by
  intro id p parent
  have lt := lt_size_of_parent? parent
  rcases Nat.eq_zero_or_pos id with zero | pos
  · rw [zero, linked.rooted] at parent
    cases parent
  · obtain ⟨q, less, parent'⟩ := linked.below id pos lt
    cases parent.symm.trans parent'
    exact less

/-- What holds of the root, and of each node whose parent it holds of, holds of every node. -/
theorem induct_from_root {motive : ∀ id, id < t.size → Prop} (linked : t.Linked)
    (root : motive 0 linked.nonempty)
    (child : ∀ id p (lt : id < t.size) (lt' : p < t.size), t.parent? id = some p → motive p lt' →
      motive id lt) (id : NodeId) (lt : id < t.size) : motive id lt := by
  induction id using Nat.strongRecOn with
  | ind id ih =>
    rcases Nat.eq_zero_or_pos id with rfl | pos
    · exact root
    · obtain ⟨p, less, parent⟩ := linked.below id pos lt
      exact child id p lt (Nat.lt_trans less lt) parent (ih p less (Nat.lt_trans less lt))

/-- The children of a node are those that have it as their parent. -/
theorem mem_childIds_iff (linked : t.Linked) : q ∈ t.childIds p ↔ t.parent? q = some p := by
  rw [linked.listed p, List.mem_filter, List.mem_range, decide_eq_true_eq]
  exact ⟨And.right, fun parent => ⟨lt_size_of_parent? parent, parent⟩⟩

/-- No node is a child twice. -/
theorem nodup_childIds (linked : t.Linked) (p : NodeId) : (t.childIds p).Nodup := by
  rw [linked.listed p]
  exact List.nodup_range.filter _

/-- Children come behind their parent. -/
theorem order (linked : t.Linked) (mem : q ∈ t.childIds p) : p < q ∧ q < t.size := by
  have parent := linked.mem_childIds_iff.mp mem
  exact ⟨linked.grounded q p parent, lt_size_of_parent? parent⟩

/-- A node with a parent is a child of that parent, once, and of no other node. -/
theorem count_childIds (linked : t.Linked) (parent : t.parent? id = some p) (q : NodeId) :
    (t.childIds q).count id = if q = p then 1 else 0 := by
  have child : id ∈ t.childIds q ↔ q = p := by
    rw [linked.mem_childIds_iff, parent, Option.some.injEq, eq_comm]
  split
  · next same => exact List.count_eq_one_of_mem (linked.nodup_childIds q) (child.mpr same)
  · next other => exact List.count_eq_zero_of_not_mem (mt child.mp other)

end Linked

/-! ## The way up -/

/-- Going from a node to its parent, from there to its parent, and so on until there is none. -/
inductive Climbs (t : Tree) : NodeId → List NodeId → Prop where
  | stop {id : NodeId} (parent : t.parent? id = none) : Climbs t id [id]
  | up {id p : NodeId} {way : List NodeId} (parent : t.parent? id = some p)
      (rest : Climbs t p way) : Climbs t id (id :: way)

/-- There is no way up from a node that is its own parent. -/
theorem not_climbs_of_own_parent (own : t.parent? id = some id) (way : List NodeId) :
    ¬t.Climbs id way := by
  induction way with
  | nil => exact fun climbs => nomatch climbs
  | cons a way ih =>
    intro climbs
    cases climbs with
    | stop parent => cases own.symm.trans parent
    | up parent rest =>
      cases own.symm.trans parent
      exact ih rest

namespace Linked

/-- The way up goes on from the parent. -/
theorem ancestors_eq (linked : t.Linked) (parent : t.parent? id = some p) :
    t.ancestors id = id :: t.ancestors p := by
  rw [linked.grounded.ancestors_eq (lt_size_of_parent? parent), parent]

theorem ancestors_zero (linked : t.Linked) : t.ancestors 0 = [0] := by
  rw [linked.grounded.ancestors_eq linked.nonempty, linked.rooted]

/-- The way up from every node ends, at the root, and no step of it is cut off. -/
theorem climbs (linked : t.Linked) (lt : id < t.size) :
    t.Climbs id (t.ancestors id) ∧ (t.ancestors id).getLast? = some 0 := by
  induction id, lt using linked.induct_from_root with
  | root =>
    rw [linked.ancestors_zero]
    exact ⟨.stop linked.rooted, rfl⟩
  | child id p lt _ parent ih =>
    rw [linked.ancestors_eq parent]
    refine ⟨.up parent ih.1, ?_⟩
    rw [List.getLast?_cons, ih.2, Option.getD_some]

/-- A child is one deeper than its parent. -/
theorem depthOf_eq (linked : t.Linked) (parent : t.parent? id = some p) :
    t.depthOf id = t.depthOf p + 1 := by
  have lt := Nat.lt_trans (linked.grounded id p parent) (lt_size_of_parent? parent)
  have here : 0 < (t.ancestors p).length := by
    rw [linked.grounded.ancestors_eq lt]
    exact Nat.succ_pos _
  rw [depthOf, depthOf, linked.ancestors_eq parent, List.length_cons]
  omega

end Linked

/-! ## Sequences of additions -/

/-- Additions are made one after the other, if each is accepted. -/
theorem addAll?_cons (a : Addition) (rest : List Addition) : t.addAll? (a :: rest) =
    if a.parent ≤ t.size then (t.add a.parent a.component a.cycle).addAll? rest else none := by
  rw [addAll?, List.foldlM_cons, add?]
  split <;> rfl

theorem extends_addAll? (added : t.addAll? adds = some u) : u.Extends t := by
  induction adds generalizing t with
  | nil =>
    cases added
    exact .refl _
  | cons a rest ih =>
    rw [addAll?_cons] at added
    split at added
    · exact (ih added).trans extends_add
    · cases added

/-- Additions below nodes that are there are all carried out, and keep a tree a tree. -/
theorem Linked.exists_addAll? (linked : t.Linked) (within : Addition.Within t.size adds) :
    ∃ u, t.addAll? adds = some u ∧ u.Linked ∧ u.size = t.size + adds.length := by
  induction adds generalizing t with
  | nil => exact ⟨t, rfl, linked, rfl⟩
  | cons a rest ih =>
    obtain ⟨lt, later⟩ := Addition.within_cons_iff.mp within
    have step : (t.add a.parent a.component a.cycle).Linked := linked.add lt
    have grown : (t.add a.parent a.component a.cycle).size = t.size + 1 := size_add
    rw [← grown] at later
    obtain ⟨u, added, linked', size⟩ := ih step later
    refine ⟨u, ?_, linked', ?_⟩
    · rw [addAll?_cons, if_pos (Nat.le_of_lt lt), added]
    · rw [size, size_add, List.length_cons]
      omega

/-- A node that is added below its own number is its own parent. -/
theorem parent?_add_self : (t.add t.size c cycle).parent? t.size = some t.size := by
  rw [parent?, add, node?, modify, Array.getElem?_modify, if_pos rfl]
  rw [size, Array.getElem?_push_size]
  rfl

/-- Where parents come before their children, each addition has been below a node that was there. -/
theorem Grounded.within (grounded : u.Grounded) (added : t.addAll? adds = some u) :
    Addition.Within t.size adds := by
  induction adds generalizing t with
  | nil => exact Addition.within_nil
  | cons a rest ih =>
    rw [addAll?_cons] at added
    split at added
    · next le =>
      have later := ih added
      rw [size_add] at later
      refine Addition.within_cons_iff.mpr ⟨Nat.lt_of_le_of_ne le fun own => ?_, later⟩
      have bound : t.size < (t.add a.parent a.component a.cycle).size := by
        rw [size_add]
        exact Nat.lt_succ_self _
      have parent : u.parent? t.size = some t.size := by
        rw [(extends_addAll? added).parent? bound, own, parent?_add_self]
      exact Nat.lt_irrefl _ (grounded _ _ parent)
    · cases added

end Tree

end RouteTrees
