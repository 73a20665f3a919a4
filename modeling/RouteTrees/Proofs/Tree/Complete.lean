import Mathlib.Data.List.Forall2
import RouteTrees.Proofs.Tree.Reach

/-!
# What holds of a tree that has been built

While a tree grows, the nodes that are still to be grown are bare, each other node is finished, and a node
is marked just if its file is met above it. All of this is kept by growing one node, because that changes
no other node that is already there; what is left in the end is that all nodes are finished.
-/

namespace RouteTrees

open Script (Module)

namespace Tree

/-- The files on the way from the parent of a node up to the root. -/
def above (t : Tree) (id : NodeId) : List Path := (t.chain id).tail

/-- Whether a node is marked just if its file is met above it. -/
def Marked (t : Tree) : Prop :=
  ∀ id n, t.node? id = some n → n.cycle = (t.above id).any (·.same n.component.path)

/-- Whether a node is below another, under the name and with the file of an import. -/
def IsChild (t : Tree) (parent : NodeId) (c : Component) (id : NodeId) : Prop :=
  ∃ n, t.node? id = some n ∧ n.component.name = c.name ∧ n.component.path = c.path ∧
    n.parent = some parent

/-- What a node is once it has been grown, or if it is not to be. -/
inductive Finished (s : Scope) (t : Tree) (id : NodeId) (n : TreeNode) : Prop where
  /-- A node that closes a cycle stays bare. -/
  | closed (cycle : n.cycle = true) (kind : n.component.kind = none) (children : n.children = [])
  /-- Any other has the kind of its file, and its imports as children. -/
  | grown (m : Module) (cycle : n.cycle = false) (read : s.disk.module n.component.path = .ok m)
      (kind : n.component.kind = some (.ofDirective m.isClient))
      (children : List.Forall₂ (t.IsChild id) (s.imports n.component.path m) n.children)

/-- Whether a tree is all that the imports of a root give. -/
structure Complete (s : Scope) (root : Component) (t : Tree) : Prop where
  extend : t.Extends (.ofRoot root)
  grounded : t.Grounded
  reached : ∀ id n, t.node? id = some n → s.Reaches root.path n.component.path
  marked : t.Marked
  finished : ∀ id n, t.node? id = some n → t.Finished s id n

variable {t u : Tree} {s : Scope} {id p : NodeId} {c : Component} {n : TreeNode}

theorem IsChild.extends (child : t.IsChild p c id) (extend : u.Extends t) : u.IsChild p c id := by
  obtain ⟨n, found, name, path, parent⟩ := child
  obtain ⟨m, found', becomes⟩ := extend id n found
  exact ⟨m, found', becomes.name.trans name, becomes.path.trans path, becomes.parent.trans parent⟩

/-- A finished node stays finished when the tree grows. -/
theorem Finished.extends (finished : t.Finished s id n) (extend : u.Extends t) :
    u.Finished s id n := by
  cases finished with
  | closed cycle kind children => exact .closed cycle kind children
  | grown m cycle read kind children =>
    exact .grown m cycle read kind (children.imp fun _ _ child => child.extends extend)

theorem exists_isChild {parent : NodeId} {cs : List Component} {ids : List NodeId}
    (children : List.Forall₂ (t.IsChild parent) cs ids) (mem : id ∈ ids) :
    ∃ c, t.IsChild parent c id := by
  induction children with
  | nil => cases mem
  | cons first _ ih =>
    rcases List.mem_cons.mp mem with rfl | later
    · exact ⟨_, first⟩
    · exact ih later

/-- The files above a node are those on the way up from its parent. -/
theorem Grounded.above_eq (grounded : t.Grounded) (found : t.node? id = some n)
    (parent : n.parent = some p) : t.above id = t.chain p := by
  rw [above, grounded.chain_eq found, parent, List.tail_cons]

theorem Grounded.chain_eq_cons_above (grounded : t.Grounded) (found : t.node? id = some n) :
    t.chain id = n.component.path :: t.above id := by
  rw [above, grounded.chain_eq found, List.tail_cons]

end Tree

/-! ## One node -/

namespace Sprouted

variable {t : Tree} {bud : Bud} {kind : Kind} {cs : List Component} {grown : Tree × List Bud}
  {id : NodeId} {n : TreeNode}

/-- A node of the grown tree is the one that has been grown, or another that was there before, or a new
one for an import. -/
theorem cases_node? (sprouted : Sprouted t bud kind cs grown) (found : grown.1.node? id = some n) :
    (id = bud.id ∧ ∃ old, t.node? bud.id = some old ∧
      n = { old with
        component := { old.component with kind := some kind }
        children := old.children ++ List.range' t.size cs.length }) ∨
    (id ≠ bud.id ∧ t.node? id = some n) ∨
    (∃ i c, id = t.size + i ∧ cs[i]? = some c ∧
      n = { component := c, cycle := t.closes bud.id c, parent := some bud.id }) := by
  rcases Nat.lt_or_ge id t.size with less | ge
  · by_cases self : id = bud.id
    · subst self
      obtain ⟨old, found'⟩ := Tree.exists_node? less
      exact .inl ⟨rfl, old, found', Option.some.inj (found.symm.trans (sprouted.self old found'))⟩
    · exact .inr (.inl ⟨self, (sprouted.other id less self).symm.trans found⟩)
  · have lt : id - t.size < cs.length :=
      Nat.sub_lt_left_of_lt_add ge (sprouted.size ▸ Tree.lt_size_of_node? found)
    have new := sprouted.child (id - t.size) cs[id - t.size] (List.getElem?_eq_getElem lt)
    rw [Nat.add_sub_cancel' ge] at new
    exact .inr (.inr ⟨id - t.size, _, (Nat.add_sub_cancel' ge).symm, List.getElem?_eq_getElem lt,
      Option.some.inj (found.symm.trans new)⟩)

/-- A new node that closes no cycle is a bud. -/
theorem mem_buds (sprouted : Sprouted t bud kind cs grown) {i : Nat} {c : Component}
    (found : cs[i]? = some c) (open_ : t.closes bud.id c = false) :
    ⟨t.size + i, c.path⟩ ∈ grown.2 := by
  rw [sprouted.buds]
  have listed : (c, t.size + i) ∈ cs.zipIdx t.size := by
    rw [List.mk_mem_zipIdx_iff_le_and_getElem?_sub, Nat.add_sub_cancel_left]
    exact ⟨Nat.le_add_right _ _, found⟩
  exact List.mem_filterMap.mpr ⟨_, listed, by simp only [open_, Bool.false_eq_true, if_false]⟩

/-- The buds of a node have numbers in ascending order. -/
theorem ids_sublist (sprouted : Sprouted t bud kind cs grown) :
    (grown.2.map (·.id)).Sublist (List.range' t.size cs.length) := by
  rw [sprouted.buds, ← List.zipIdx_map_snd t.size cs]
  induction cs.zipIdx t.size with
  | nil => exact .slnil
  | cons e rest ih =>
    obtain ⟨c, id⟩ := e
    rw [List.filterMap_cons, List.map_cons]
    cases closes : t.closes bud.id c with
    | true => simpa only [closes, if_true] using ih.cons id
    | false =>
      simpa only [closes, Bool.false_eq_true, if_false, List.map_cons] using ih.cons_cons id

/-- The new nodes are the children that the imports call for. -/
theorem forall₂_isChild (sprouted : Sprouted t bud kind cs grown) :
    List.Forall₂ (grown.1.IsChild bud.id) cs (List.range' t.size cs.length) := by
  refine List.forall₂_iff_get.mpr ⟨List.length_range'.symm, fun i lt _ => ?_⟩
  have new := sprouted.child i cs[i] (List.getElem?_eq_getElem lt)
  rw [List.get_eq_getElem, List.get_eq_getElem, List.getElem_range', Nat.one_mul]
  exact ⟨_, new, rfl, rfl, rfl⟩

/-- Growing a node keeps every cycle marked. -/
theorem marked (sprouted : Sprouted t bud kind cs grown) (grounded : t.Grounded)
    (lt : bud.id < t.size) (marked : t.Marked) : grown.1.Marked := by
  intro id n found
  rcases Nat.lt_or_ge id t.size with less | ge
  · obtain ⟨old, found'⟩ := Tree.exists_node? less
    obtain ⟨n', found'', becomes⟩ := sprouted.extend id old found'
    cases found.symm.trans found''
    rw [becomes.cycle, becomes.path, Tree.above, grounded.chain_extends sprouted.extend less]
    exact marked id old found'
  · rcases sprouted.cases_node? found with ⟨rfl, -⟩ | ⟨-, old⟩ | ⟨i, c, rfl, -, rfl⟩
    · exact absurd lt (Nat.not_lt.mpr ge)
    · exact absurd (Tree.lt_size_of_node? old) (Nat.not_lt.mpr ge)
    · rw [sprouted.grounded.above_eq found rfl, grounded.chain_extends sprouted.extend lt]
      rfl

end Sprouted

theorem Scope.kind_of_mem_imports {s : Scope} {file : Path} {m : Module} {c : Component}
    (mem : c ∈ s.imports file m) : c.kind = none := by
  obtain ⟨specifier, -, found⟩ := List.mem_filterMap.mp mem
  obtain ⟨r, -, rfl⟩ := Option.map_eq_some_iff.mp found
  rfl

/-! ## While a tree grows -/

/-- What is kept while a tree grows. -/
structure Growth.Sound (s : Scope) (root : Component) (g : Growth) : Prop where
  extend : g.tree.Extends (.ofRoot root)
  bare : ∀ b ∈ g.buds, ∃ n, g.tree.node? b.id = some n ∧ n.component.path = b.file ∧
    n.component.kind = none ∧ n.children = [] ∧ n.cycle = false
  once : (g.buds.map (·.id)).Nodup
  reached : ∀ id n, g.tree.node? id = some n → s.Reaches root.path n.component.path
  marked : g.tree.Marked
  finished : ∀ id n, g.tree.node? id = some n → (∀ b ∈ g.buds, b.id ≠ id) →
    g.tree.Finished s id n

namespace Growth.Sound

variable {s : Scope} {root : Component} {g : Growth} {bud : Bud} {rest : List Bud} {m : Module}

/-- A root that has no kind yet. -/
theorem ofRoot (s : Scope) (name : String) (path : Path) :
    Sound s ⟨name, path, none⟩ (.ofRoot ⟨name, path, none⟩) where
  extend := .refl _
  bare b mem := by
    cases List.mem_singleton.mp mem
    exact ⟨_, rfl, rfl, rfl, rfl, rfl⟩
  once := List.nodup_cons.mpr ⟨List.not_mem_nil, List.nodup_nil⟩
  reached id n found := by
    cases id with
    | zero =>
      cases found
      exact .entry
    | succ id => cases found
  marked id n found := by
    cases id with
    | zero =>
      cases found
      rfl
    | succ id => cases found
  finished id n found other := by
    cases id with
    | zero => exact absurd rfl (other ⟨0, path⟩ List.mem_cons_self)
    | succ id => cases found

/-- Growing a node keeps what is sound. -/
theorem step (sound : g.Sound s root) (next : g.buds = bud :: rest)
    (read : s.disk.module bud.file = .ok m) : (g.step s next m).Sound s root := by
  have sprouted := Growth.sprouted s next m
  have lt := g.inTree bud (next ▸ List.mem_cons_self)
  have once : bud.id ∉ rest.map (·.id) ∧ (rest.map (·.id)).Nodup := by
    have all := sound.once
    rw [next, List.map_cons, List.nodup_cons] at all
    exact all
  have differ : ∀ b ∈ rest, b.id ≠ bud.id := fun b mem same =>
    once.1 (List.mem_map.mpr ⟨b, mem, same⟩)
  obtain ⟨n₀, found₀, path, kind, children, cycle⟩ := sound.bare bud (next ▸ List.mem_cons_self)
  refine {
    extend := sprouted.extend.trans sound.extend
    bare := ?bare
    once := ?once
    reached := ?reached
    marked := sprouted.marked g.grounded lt sound.marked
    finished := ?finished }
  case bare =>
    intro b mem
    rcases List.mem_append.mp mem with new | old
    · obtain ⟨c, imported, file, -, node⟩ := sprouted.exists_of_mem_buds new
      exact ⟨_, node, file.symm, Scope.kind_of_mem_imports imported, rfl, rfl⟩
    · have listed : b ∈ g.buds := next ▸ List.mem_cons_of_mem _ old
      obtain ⟨n, found, bare⟩ := sound.bare b listed
      exact ⟨n, (sprouted.other b.id (g.inTree b listed) (differ b old)).trans found, bare⟩
  case once =>
    -- new nodes are numbered from the old size on, and all others that are still to be grown below it
    have apart : ∀ id ∈ (s.sprout bud m g.tree).2.map (·.id), id ∉ rest.map (·.id) := by
      intro id new old
      obtain ⟨b, listed, rfl⟩ := List.mem_map.mp old
      have ge := (List.mem_range'_1.mp (sprouted.ids_sublist.subset new)).1
      have less := g.inTree b (next ▸ List.mem_cons_of_mem _ listed)
      exact absurd less (Nat.not_lt.mpr ge)
    have all : ((s.sprout bud m g.tree).2 ++ rest).map (·.id) =
        (s.sprout bud m g.tree).2.map (·.id) ++ rest.map (·.id) := List.map_append
    have new := sprouted.ids_sublist.nodup List.nodup_range'
    rw [show (g.step s next m).buds = (s.sprout bud m g.tree).2 ++ rest from rfl, all]
    exact List.nodup_append.mpr ⟨new, once.2, fun id mem id' mem' same =>
      apart id mem (same ▸ mem')⟩
  case reached =>
    intro id n found
    rcases sprouted.cases_node? found with ⟨rfl, old, found', rfl⟩ | ⟨-, found'⟩ |
      ⟨i, c, rfl, imported, rfl⟩
    · exact sound.reached bud.id old found'
    · exact sound.reached id n found'
    · have reached := sound.reached bud.id n₀ found₀
      rw [path] at reached
      exact reached.of_mem_imports read (List.mem_of_getElem? imported)
  case finished =>
    intro id n found other
    rcases sprouted.cases_node? found with ⟨rfl, old, found', rfl⟩ | ⟨ne, found'⟩ |
      ⟨i, c, rfl, imported, rfl⟩
    · cases found₀.symm.trans found'
      refine .grown m cycle (path ▸ read) rfl ?_
      rw [children, List.nil_append, path]
      exact sprouted.forall₂_isChild
    · -- a node that was there and is not to be grown has been finished before
      have notBud : ∀ b ∈ g.buds, b.id ≠ id := by
        rw [next]
        exact List.forall_mem_cons.mpr ⟨Ne.symm ne,
          fun b mem => other b (List.mem_append_right _ mem)⟩
      exact (sound.finished id n found' notBud).extends sprouted.extend
    · -- a new node that is not to be grown closes a cycle
      have closes : g.tree.closes bud.id c = true := by
        cases closes : g.tree.closes bud.id c with
        | true => rfl
        | false =>
          have new := sprouted.mem_buds imported closes
          exact absurd rfl (other _ (List.mem_append_left rest new))
      exact .closed closes (Scope.kind_of_mem_imports (List.mem_of_getElem? imported)) rfl

end Growth.Sound

/-- A tree that has been built is complete. -/
theorem Scope.complete_of_alone_build {s : Scope} {r : Route} {t : Tree}
    (built : (s.build r).alone = .ok t) :
    t.Complete s ⟨r.route, s.disk.canonical r.entry, none⟩ := by
  obtain ⟨g, sound, done, rfl⟩ := exists_of_alone_grow
    (fun _ _ _ _ next read sound => sound.step next read) (Growth.Sound.ofRoot s _ _) built
  refine ⟨sound.extend, g.grounded, sound.reached, sound.marked, fun id n found => ?_⟩
  refine sound.finished id n found ?_
  rw [done]
  exact fun b mem => (nomatch mem)

end RouteTrees
