import RouteTrees.Tree.Basic

/-!
# The way up from a node

What adding a node or finding out a kind does to a table, node by node. A tree is `Grounded` if every
parent has a smaller number than its child, so that the way up from a node ends. What grows out of a
tree `Extends` it: its nodes keep their names, files, marks and parents, and so the ways up from them
stay what they were.
-/

namespace RouteTrees

/-- Whether one node may become the other while a tree grows: only its kind and its children may
change. -/
structure TreeNode.Becomes (n m : TreeNode) : Prop where
  name : m.component.name = n.component.name
  path : m.component.path = n.component.path
  cycle : m.cycle = n.cycle
  parent : m.parent = n.parent

namespace Tree

variable {t u v : Tree} {id p : NodeId} {c : Component} {cycle : Bool} {n : TreeNode}

/-- A tree in which one node has been given a kind. -/
def setKind (t : Tree) (id : NodeId) (kind : Kind) : Tree :=
  t.modify id fun n => { n with component := { n.component with kind := some kind } }

/-! ## Single nodes -/

theorem lt_size_of_node? (found : t.node? id = some n) : id < t.size :=
  (Array.getElem?_eq_some_iff.mp found).1

theorem exists_node? (lt : id < t.size) : ∃ n, t.node? id = some n :=
  ⟨t.nodes[id], Array.getElem?_eq_getElem lt⟩

@[simp] theorem size_add : (t.add p c cycle).size = t.size + 1 := by
  simp only [add, size, modify, Array.size_modify, Array.size_push]

@[simp] theorem size_setKind (kind : Kind) : (t.setKind id kind).size = t.size := by
  simp only [setKind, size, modify, Array.size_modify]

/-- The new node is the one that was asked for. -/
theorem node?_add_new (lt : p < t.size) : (t.add p c cycle).node? t.size =
    some { component := c, cycle := cycle, parent := some p } := by
  have ne : p ≠ t.size := Nat.ne_of_lt lt
  rw [add, node?, modify, Array.getElem?_modify, if_neg ne]
  exact Array.getElem?_push_size

/-- The parent of a new node has it as its last child. -/
theorem node?_add_parent (found : t.node? p = some n) : (t.add p c cycle).node? p =
    some { n with children := n.children ++ [t.size] } := by
  have lt : p < t.size := lt_size_of_node? found
  rw [add, node?, modify, Array.getElem?_modify, if_pos rfl,
    Array.getElem?_push_lt lt, ← Array.getElem?_eq_getElem lt]
  rw [node?] at found
  rw [found, Option.map_some]

/-- Adding a node below another leaves all other nodes. -/
theorem node?_add_other (ne : id ≠ p) (old : id ≠ t.size) :
    (t.add p c cycle).node? id = t.node? id := by
  rw [add, node?, modify, Array.getElem?_modify, if_neg (Ne.symm ne), Array.getElem?_push]
  exact if_neg old

/-- The node that is given a kind has it. -/
theorem node?_setKind_self (found : t.node? id = some n) (kind : Kind) :
    (t.setKind id kind).node? id =
      some { n with component := { n.component with kind := some kind } } := by
  rw [node?] at found
  rw [setKind, node?, modify, Array.getElem?_modify, if_pos rfl, found, Option.map_some]

theorem node?_setKind_other {other : NodeId} (ne : other ≠ id) (kind : Kind) :
    (t.setKind id kind).node? other = t.node? other := by
  rw [setKind, node?, modify, Array.getElem?_modify, if_neg (Ne.symm ne), node?]

/-! ## Growing out of a tree -/

/-- Whether one tree has every node of another, at the same place: it may have more nodes, and more children and
kinds. -/
def Extends (u t : Tree) : Prop :=
  ∀ id n, t.node? id = some n → ∃ m, u.node? id = some m ∧ n.Becomes m

theorem Extends.refl (t : Tree) : t.Extends t := fun _ n found => ⟨n, found, rfl, rfl, rfl, rfl⟩

/-- Growing out of a tree that has grown out of another is growing out of that one. -/
theorem Extends.trans (second : v.Extends u) (first : u.Extends t) : v.Extends t := by
  intro id n found
  obtain ⟨m, foundM, becomesM⟩ := first id n found
  obtain ⟨k, foundK, becomesK⟩ := second id m foundM
  exact ⟨k, foundK, becomesK.name.trans becomesM.name, becomesK.path.trans becomesM.path,
    becomesK.cycle.trans becomesM.cycle, becomesK.parent.trans becomesM.parent⟩

/-- A tree with one more node has grown out of the tree without it. -/
theorem extends_add : (t.add p c cycle).Extends t := by
  intro id n found
  have lt := lt_size_of_node? found
  by_cases parent : id = p
  · subst parent
    exact ⟨_, node?_add_parent found, rfl, rfl, rfl, rfl⟩
  · exact ⟨n, (node?_add_other parent (Nat.ne_of_lt lt)).trans found, rfl, rfl, rfl, rfl⟩

/-- Giving a node a kind takes no node away. -/
theorem extends_setKind (kind : Kind) : (t.setKind id kind).Extends t := by
  intro other n found
  by_cases same : other = id
  · subst same
    exact ⟨_, node?_setKind_self found kind, rfl, rfl, rfl, rfl⟩
  · exact ⟨n, (node?_setKind_other same kind).trans found, rfl, rfl, rfl, rfl⟩

/-- A tree that has grown is not smaller. -/
theorem Extends.size_le (extend : u.Extends t) : t.size ≤ u.size := by
  rcases Nat.lt_or_ge u.size t.size with less | le
  · obtain ⟨n, found⟩ := exists_node? less
    obtain ⟨m, foundM, -⟩ := extend u.size n found
    exact absurd (lt_size_of_node? foundM) (Nat.lt_irrefl _)
  · exact le

/-- A tree that has grown has the files of the old one under the old numbers. -/
theorem Extends.path? (extend : u.Extends t) (lt : id < t.size) : u.path? id = t.path? id := by
  obtain ⟨n, found⟩ := exists_node? lt
  obtain ⟨m, foundM, becomes⟩ := extend id n found
  rw [Tree.path?, Tree.path?, found, foundM, Option.map_some, Option.map_some, becomes.path]

/-- A tree that has grown has the old parents under the old numbers. -/
theorem Extends.parent? (extend : u.Extends t) (lt : id < t.size) :
    u.parent? id = t.parent? id := by
  obtain ⟨n, found⟩ := exists_node? lt
  obtain ⟨m, foundM, becomes⟩ := extend id n found
  rw [Tree.parent?, Tree.parent?, found, foundM, Option.bind_some, Option.bind_some, becomes.parent]

/-! ## Grounded trees -/

/-- Whether every parent has a smaller number than its child. -/
def Grounded (t : Tree) : Prop := ∀ id p, t.parent? id = some p → p < id

/-- A tree of one node is grounded, for it has no parents. -/
theorem grounded_ofRoot (root : Component) : (ofRoot root).Grounded := by
  intro id p parent
  cases id with
  | zero => cases parent
  | succ id => cases parent

/-- Only nodes have parents. -/
theorem lt_size_of_parent? (parent : t.parent? id = some p) : id < t.size := by
  obtain ⟨n, found, -⟩ := Option.bind_eq_some_iff.mp parent
  exact lt_size_of_node? found

/-- A tree stays grounded when a node is added below one that is there. -/
theorem Grounded.add (grounded : t.Grounded) (lt : p < t.size) : (t.add p c cycle).Grounded := by
  intro id q parent
  have bound : id < t.size + 1 := size_add ▸ lt_size_of_parent? parent
  by_cases new : id = t.size
  · subst new
    rw [parent?, node?_add_new lt, Option.bind_some] at parent
    cases parent
    exact lt
  · have old : id < t.size := Nat.lt_of_le_of_ne (Nat.le_of_lt_succ bound) new
    rw [extends_add.parent? old] at parent
    exact grounded id q parent

/-- A tree stays grounded when a node is given a kind. -/
theorem Grounded.setKind (grounded : t.Grounded) (kind : Kind) : (t.setKind id kind).Grounded := by
  intro other q parent
  have bound : other < t.size := size_setKind (t := t) kind ▸ lt_size_of_parent? parent
  rw [(extends_setKind kind).parent? bound] at parent
  exact grounded other q parent

/-- No more steps up are needed than the number of the node. -/
theorem Grounded.climb_eq (grounded : t.Grounded) {k l : Nat} (enough : id < k) (more : id < l) :
    t.climb k id = t.climb l id := by
  induction k generalizing l id with
  | zero => cases enough
  | succ k ih =>
    cases l with
    | zero => cases more
    | succ l =>
      rw [climb, climb]
      cases parent : t.parent? id with
      | none => rfl
      | some p =>
        have less := grounded id p parent
        exact congrArg (id :: ·) (ih (Nat.lt_of_lt_of_le less (Nat.le_of_lt_succ enough))
          (Nat.lt_of_lt_of_le less (Nat.le_of_lt_succ more)))

/-- The way up from a node is the same in every tree that has grown out of this one. -/
theorem Grounded.climb_extends (grounded : t.Grounded) (extend : u.Extends t) (lt : id < t.size)
    (k : Nat) : u.climb k id = t.climb k id := by
  induction k generalizing id with
  | zero => rfl
  | succ k ih =>
    rw [climb, climb, extend.parent? lt]
    cases parent : t.parent? id with
    | none => rfl
    | some p => exact congrArg (id :: ·) (ih (Nat.lt_trans (grounded id p parent) lt))

/-- The way up from a node is the same in a tree that has grown. -/
theorem Grounded.ancestors_extends (grounded : t.Grounded) (extend : u.Extends t)
    (lt : id < t.size) : u.ancestors id = t.ancestors id := by
  rw [ancestors, grounded.climb_extends extend lt, ancestors]
  exact grounded.climb_eq (Nat.lt_of_lt_of_le lt extend.size_le) lt

/-- The way up from a node goes on with the way up from its parent. -/
theorem Grounded.ancestors_eq (grounded : t.Grounded) (lt : id < t.size) :
    t.ancestors id = id :: match t.parent? id with
      | some p => t.ancestors p
      | none => [] := by
  have step : t.ancestors id = t.climb (id + 1) id := grounded.climb_eq lt (Nat.lt_succ_self id)
  rw [step, climb]
  cases parent : t.parent? id with
  | none => rfl
  | some p =>
    have less := grounded id p parent
    exact congrArg (id :: ·) (grounded.climb_eq less (Nat.lt_trans less lt))

/-- No number on the way up from a node exceeds its own. -/
theorem Grounded.le_of_mem_climb (grounded : t.Grounded) {k : Nat} {a : NodeId}
    (mem : a ∈ t.climb k id) : a ≤ id := by
  induction k generalizing id with
  | zero => cases mem
  | succ k ih =>
    rw [climb] at mem
    rcases List.mem_cons.mp mem with rfl | above
    · exact Nat.le_refl _
    · cases parent : t.parent? id with
      | none => simp only [parent, List.not_mem_nil] at above
      | some p =>
        simp only [parent] at above
        exact Nat.le_trans (ih above) (Nat.le_of_lt (grounded id p parent))

/-! ## Files on the way -/

/-- The files on the way from a node up to the root. -/
def chain (t : Tree) (id : NodeId) : List Path := (t.ancestors id).filterMap t.path?

/-- A file is met on the way to a node if one of its chain says the same. -/
theorem isOnPath_eq (t : Tree) (id : NodeId) (path : Path) :
    t.isOnPath id path = (t.chain id).any (·.same path) := by
  rw [isOnPath, chain, List.any_filterMap]
  congr 1
  funext a
  rw [isAt]
  cases t.path? a <;> rfl

/-- The files on the way up from a node are the same in a tree that has grown. -/
theorem Grounded.chain_extends (grounded : t.Grounded) (extend : u.Extends t) (lt : id < t.size) :
    u.chain id = t.chain id := by
  have paths : (t.ancestors id).map u.path? = (t.ancestors id).map t.path? :=
    List.map_congr_left fun a mem =>
      extend.path? (Nat.lt_of_le_of_lt (grounded.le_of_mem_climb mem) lt)
  have same := congrArg (List.filterMap fun path => path) paths
  rw [List.filterMap_map, List.filterMap_map] at same
  rw [chain, grounded.ancestors_extends extend lt, chain]
  exact same

/-- The files on the way up from a node are its own and then those from its parent. -/
theorem Grounded.chain_eq (grounded : t.Grounded) (found : t.node? id = some n) :
    t.chain id = n.component.path :: match n.parent with
      | some p => t.chain p
      | none => [] := by
  have parent : t.parent? id = n.parent := by rw [parent?, found, Option.bind_some]
  have path : t.path? id = some n.component.path := by rw [path?, found, Option.map_some]
  rw [chain, grounded.ancestors_eq (lt_size_of_node? found), parent, List.filterMap_cons_some path]
  cases n.parent <;> rfl

end Tree

end RouteTrees
