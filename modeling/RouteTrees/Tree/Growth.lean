import RouteTrees.Project.Basic
import RouteTrees.Project.Resolution
import RouteTrees.Project.Route
import RouteTrees.Project.Sources
import RouteTrees.Tree.Ancestors
import RouteTrees.Tree.Cache

/-!
# How the tree of a route grows

A node is grown by reading its file: the file gives it its kind, and each import that refers to a file of
the project a child. A child whose file is met on the way from the root closes a cycle and stays a leaf;
the others are still to be grown, in their order and before all that was to be grown before.

Growing ends because no file occurs twice on the way to a node that is grown: each node that is put
before the rest has fewer files left for what is below it than the one that was taken away. That order of
what is left is `Ranks.Below`.
-/

namespace RouteTrees

open Script (Module)

/-- Whether an import of a node's file leads back to a file on the way from the root. -/
def Tree.closes (t : Tree) (id : NodeId) (c : Component) : Bool := (t.chain id).any (·.same c.path)

/-- A node that is still to be grown, and its file. -/
structure Bud where
  id : NodeId
  file : Path
deriving DecidableEq, Repr

namespace Scope

/-- Adds what one specifier of a file refers to, if anything: a node and, unless it closes a cycle, a bud. -/
def addImport (s : Scope) (bud : Bud) (grown : Tree × List Bud) (specifier : String) :
    Tree × List Bud :=
  match s.resolve? bud.file specifier with
  | none => grown
  | some r =>
    let cycle := grown.1.isOnPath bud.id r.path
    (grown.1.add bud.id ⟨specifier, r.path, none⟩ cycle,
      if cycle then grown.2 else grown.2 ++ [⟨grown.1.size, r.path⟩])

/-- Gives a node its kind and its children, given its module, and answers which of them are to be
grown. -/
def sprout (s : Scope) (bud : Bud) (m : Module) (t : Tree) : Tree × List Bud :=
  m.imports.foldl (s.addImport bud) (t.setKind bud.id (.ofDirective m.isClient), [])

/-- What a file imports of the project, under the names that it has there, in order. -/
def imports (s : Scope) (file : Path) (m : Module) : List Component :=
  m.imports.filterMap fun specifier =>
    (s.resolve? file specifier).map fun r => ⟨specifier, r.path, none⟩

/-- What a module imports is among the files that imports can refer to. -/
theorem path_mem_files_of_mem_imports {s : Scope} {file : Path} {m : Module} {c : Component}
    (mem : c ∈ s.imports file m) : c.path ∈ s.files := by
  obtain ⟨specifier, -, found⟩ := List.mem_filterMap.mp mem
  obtain ⟨r, resolved, rfl⟩ := Option.map_eq_some_iff.mp found
  exact path_mem_files resolved

end Scope

/-! ## What growing a node does -/

/-- What has become of a tree once a node of it has its kind and some children: new nodes, numbered from
the old size on, of which those are buds that close no cycle. -/
structure Sprouted (t : Tree) (bud : Bud) (kind : Kind) (cs : List Component)
    (grown : Tree × List Bud) : Prop where
  extend : grown.1.Extends t
  grounded : grown.1.Grounded
  size : grown.1.size = t.size + cs.length
  other : ∀ id, id < t.size → id ≠ bud.id → grown.1.node? id = t.node? id
  self : ∀ n, t.node? bud.id = some n → grown.1.node? bud.id =
    some { n with
      component := { n.component with kind := some kind }
      children := n.children ++ List.range' t.size cs.length }
  child : ∀ i c, cs[i]? = some c → grown.1.node? (t.size + i) =
    some { component := c, cycle := t.closes bud.id c, parent := some bud.id }
  buds : grown.2 = (cs.zipIdx t.size).filterMap fun (c, id) =>
    if t.closes bud.id c then none else some ⟨id, c.path⟩

namespace Sprouted

variable {t : Tree} {bud : Bud} {kind : Kind} {cs : List Component}
  {grown : Tree × List Bud}

/-- Before the first import, a node has its kind and no children. -/
theorem setKind (grounded : t.Grounded) (kind : Kind) :
    Sprouted t bud kind [] (t.setKind bud.id kind, []) where
  extend := Tree.extends_setKind kind
  grounded := grounded.setKind kind
  size := Tree.size_setKind kind
  other _ _ ne := Tree.node?_setKind_other ne kind
  self n found := by
    rw [Tree.node?_setKind_self found]
    simp only [List.length_nil, List.range'_zero, List.append_nil]
  child i c found := by cases found
  buds := rfl

/-- One more component makes one more child, and a bud if it closes no cycle. -/
theorem add (sprouted : Sprouted t bud kind cs grown) (lt : bud.id < t.size) (c : Component) :
    Sprouted t bud kind (cs ++ [c])
      (grown.1.add bud.id c (t.closes bud.id c),
        if t.closes bud.id c then grown.2 else grown.2 ++ [⟨grown.1.size, c.path⟩]) where
  extend := Tree.extends_add.trans sprouted.extend
  grounded := sprouted.grounded.add (Nat.lt_of_lt_of_le lt sprouted.extend.size_le)
  size := by
    rw [Tree.size_add, sprouted.size, List.length_append, List.length_singleton, Nat.add_assoc]
  other id old ne := by
    have old' : id ≠ grown.1.size :=
      Nat.ne_of_lt (Nat.lt_of_lt_of_le old sprouted.extend.size_le)
    rw [Tree.node?_add_other ne old', sprouted.other id old ne]
  self n found := by
    rw [Tree.node?_add_parent (sprouted.self n found), sprouted.size, List.length_append,
      List.length_singleton, List.range'_1_concat, List.append_assoc]
  child i d found := by
    have lt' : bud.id < grown.1.size := Nat.lt_of_lt_of_le lt sprouted.extend.size_le
    rcases Nat.lt_or_ge i cs.length with less | ge
    · rw [List.getElem?_append_left less] at found
      rw [Tree.node?_add_other, sprouted.child i d found]
      · exact Nat.ne_of_gt (Nat.lt_of_lt_of_le lt (Nat.le_add_right _ _))
      · rw [sprouted.size]
        exact Nat.ne_of_lt (Nat.add_lt_add_left less _)
    · rw [List.getElem?_append_right ge, List.getElem?_singleton] at found
      split at found
      · next zero =>
        cases found
        have last : t.size + i = grown.1.size := by rw [sprouted.size]; omega
        rw [last, Tree.node?_add_new lt']
      · cases found
  buds := by
    rw [List.zipIdx_append, List.filterMap_append, ← sprouted.buds, List.zipIdx_singleton,
      ← sprouted.size]
    cases closes : t.closes bud.id c with
    | false => simp only [Bool.false_eq_true, if_false, List.filterMap_cons, closes,
        List.filterMap_nil]
    | true => simp only [if_true, List.filterMap_cons, closes, List.filterMap_nil,
        List.append_nil]

/-- One more specifier makes one more component, if it refers to a file. -/
theorem addImport (s : Scope) (sprouted : Sprouted t bud kind cs grown) (grounded : t.Grounded)
    (lt : bud.id < t.size) (specifier : String) :
    Sprouted t bud kind
      (cs ++ ((s.resolve? bud.file specifier).map fun r => ⟨specifier, r.path, none⟩).toList)
      (s.addImport bud grown specifier) := by
  unfold Scope.addImport
  cases s.resolve? bud.file specifier with
  | none => simpa using sprouted
  | some r =>
    have same : grown.1.isOnPath bud.id r.path = t.closes bud.id ⟨specifier, r.path, none⟩ := by
      rw [Tree.isOnPath_eq, grounded.chain_extends sprouted.extend lt, Tree.closes]
    simp only [same]
    exact sprouted.add lt _

/-- All imports of a file. -/
theorem ofModule (s : Scope) (grounded : t.Grounded) (lt : bud.id < t.size) (m : Module) :
    Sprouted t bud (.ofDirective m.isClient) (s.imports bud.file m) (s.sprout bud m t) := by
  have all : ∀ (specifiers : List String) (cs : List Component) (grown : Tree × List Bud),
      Sprouted t bud (.ofDirective m.isClient) cs grown →
      Sprouted t bud (.ofDirective m.isClient)
        (cs ++ specifiers.filterMap fun specifier =>
          (s.resolve? bud.file specifier).map fun r => ⟨specifier, r.path, none⟩)
        (specifiers.foldl (s.addImport bud) grown) := by
    intro specifiers
    induction specifiers with
    | nil =>
      intro cs grown sprouted
      simpa using sprouted
    | cons specifier rest ih =>
      intro cs grown sprouted
      have next := ih _ _ (sprouted.addImport s grounded lt specifier)
      rw [List.append_assoc] at next
      rw [List.foldl_cons, List.filterMap_cons]
      cases found : s.resolve? bud.file specifier <;> simpa [found] using next
  exact all m.imports [] _ (setKind grounded _)

/-- A bud that a node has got is a new node, of an import that closes no cycle. -/
theorem exists_of_mem_buds (sprouted : Sprouted t bud kind cs grown) {b : Bud} (mem : b ∈ grown.2) :
    ∃ c, c ∈ cs ∧ b.file = c.path ∧ t.closes bud.id c = false ∧
      grown.1.node? b.id = some { component := c, cycle := false, parent := some bud.id } := by
  rw [sprouted.buds] at mem
  obtain ⟨⟨c, id⟩, listed, chosen⟩ := List.mem_filterMap.mp mem
  obtain ⟨ge, found⟩ := List.mk_mem_zipIdx_iff_le_and_getElem?_sub.mp listed
  have node := sprouted.child _ c found
  rw [Nat.add_sub_cancel' ge] at node
  cases closes : t.closes bud.id c with
  | true => simp only [closes, if_true, reduceCtorEq] at chosen
  | false =>
    simp only [closes, Bool.false_eq_true, if_false, Option.some.injEq] at chosen
    rw [closes] at node
    subst chosen
    exact ⟨c, List.mem_of_getElem? found, rfl, closes, node⟩

/-- The buds of a node are in the tree that has grown. -/
theorem lt_size_of_mem_buds (sprouted : Sprouted t bud kind cs grown) {b : Bud}
    (mem : b ∈ grown.2) : b.id < grown.1.size := by
  obtain ⟨c, -, -, -, node⟩ := sprouted.exists_of_mem_buds mem
  exact Tree.lt_size_of_node? node

/-- The way to a bud is the way to the node that has got it, and the bud's own file. -/
theorem chain_of_mem_buds (sprouted : Sprouted t bud kind cs grown) (grounded : t.Grounded)
    (lt : bud.id < t.size) {b : Bud} (mem : b ∈ grown.2) :
    grown.1.chain b.id = b.file :: t.chain bud.id := by
  obtain ⟨c, -, file, -, node⟩ := sprouted.exists_of_mem_buds mem
  rw [sprouted.grounded.chain_eq node, file]
  exact congrArg (c.path :: ·) (grounded.chain_extends sprouted.extend lt)

end Sprouted

/-! ## What is left -/

namespace Scope

/-- How many of the files that imports can refer to are not among those of a chain. -/
def unseen (s : Scope) (chain : List Path) : Nat :=
  (s.files.filter fun f => !chain.any (·.same f)).length

/-- A file that is new to a chain leaves fewer unseen. -/
theorem unseen_cons_lt {s : Scope} {p : Path} {chain : List Path} (mem : p ∈ s.files)
    (new : chain.any (·.same p) = false) : s.unseen (p :: chain) < s.unseen chain := by
  have split : (fun f => !(p :: chain).any (·.same f)) =
      fun f => !p.same f && !chain.any (·.same f) := by
    funext f
    rw [List.any_cons, Bool.not_or]
  rw [unseen, unseen, split, ← List.filter_filter]
  refine List.length_filter_lt_length_iff_exists.mpr ⟨p, List.mem_filter.mpr ⟨mem, ?_⟩, ?_⟩
  · rw [new, Bool.not_false]
  · simp only [Path.same, decide_true, Bool.not_true, Bool.false_eq_true, not_false_eq_true]

end Scope

/-- How many files are left for what is below each node that is still to be grown, the next first. -/
structure Ranks where
  left : List Nat

namespace Ranks

/-- The first rank is taken away and any number of smaller ones put in its place. -/
inductive Below : Ranks → Ranks → Prop where
  | replace {n : Nat} {new rest : List Nat} (less : ∀ k ∈ new, k < n) : Below ⟨new ++ rest⟩ ⟨n :: rest⟩

/-- If the rest comes to an end, so it does with one rank before it: by induction on that rank, what
replaces it comes to an end one by one. -/
theorem acc_cons (n : Nat) {rest : List Nat} (acc : Acc Below ⟨rest⟩) : Acc Below ⟨n :: rest⟩ := by
  induction n using Nat.strongRecOn generalizing rest with
  | ind n ih =>
    refine Acc.intro _ fun below step => ?_
    obtain ⟨less⟩ := step
    next new =>
    induction new with
    | nil => exact acc
    | cons k new ihNew =>
      exact ih k (less k List.mem_cons_self) (ihNew fun j mem => less j (List.mem_cons_of_mem _ mem))

/-- Replacing ranks by smaller ones always comes to an end. -/
theorem acc (ranks : Ranks) : Acc Below ranks := by
  obtain ⟨left⟩ := ranks
  induction left with
  | nil => exact Acc.intro _ fun below step => nomatch step
  | cons n rest ih => exact acc_cons n ih

/-- What a build is measured by. -/
instance : WellFoundedRelation Ranks := ⟨Below, ⟨acc⟩⟩

end Ranks

/-! ## A whole tree -/

/-- A tree in the making, and what is still to be grown of it, the next first. -/
structure Growth where
  tree : Tree
  buds : List Bud
  grounded : tree.Grounded
  inTree : ∀ bud ∈ buds, bud.id < tree.size

namespace Growth

variable {g : Growth} {bud : Bud} {rest : List Bud}

/-- The growth of which only the root is known. -/
def ofRoot (root : Component) : Growth where
  tree := .ofRoot root
  buds := [⟨0, root.path⟩]
  grounded := Tree.grounded_ofRoot root
  inTree bud mem := by
    cases List.mem_singleton.mp mem
    exact Nat.zero_lt_one

/-- What growing the next node does, given its module. -/
theorem sprouted (s : Scope) (next : g.buds = bud :: rest) (m : Module) :
    Sprouted g.tree bud (.ofDirective m.isClient) (s.imports bud.file m) (s.sprout bud m g.tree) :=
  .ofModule s g.grounded (g.inTree bud (next ▸ List.mem_cons_self)) m

/-- The growth once the next node has been grown, given its module: its buds come first. -/
def step (g : Growth) (s : Scope) (next : g.buds = bud :: rest) (m : Module) : Growth where
  tree := (s.sprout bud m g.tree).1
  buds := (s.sprout bud m g.tree).2 ++ rest
  grounded := (sprouted s next m).grounded
  inTree b mem := by
    rcases List.mem_append.mp mem with new | old
    · exact (sprouted s next m).lt_size_of_mem_buds new
    · have lt := g.inTree b (next ▸ List.mem_cons_of_mem _ old)
      exact Nat.lt_of_lt_of_le lt (sprouted s next m).extend.size_le

/-- How many files are left below the nodes to be grown. -/
def ranks (g : Growth) (s : Scope) : Ranks := ⟨g.buds.map fun bud => s.unseen (g.tree.chain bud.id)⟩

/-- Growing a node leaves lower ranks: each of its buds has a file that was new to the way there. -/
theorem ranks_step_below (s : Scope) (next : g.buds = bud :: rest) (m : Module) :
    Ranks.Below ((g.step s next m).ranks s) (g.ranks s) := by
  have sprouted := sprouted s next m
  have lt := g.inTree bud (next ▸ List.mem_cons_self)
  have old : rest.map (fun b => s.unseen ((g.step s next m).tree.chain b.id)) =
      rest.map fun b => s.unseen (g.tree.chain b.id) := by
    refine List.map_congr_left fun b mem => ?_
    have lt := g.inTree b (next ▸ List.mem_cons_of_mem _ mem)
    exact congrArg s.unseen (g.grounded.chain_extends sprouted.extend lt)
  have after : (g.step s next m).buds = (s.sprout bud m g.tree).2 ++ rest := rfl
  rw [ranks, ranks, next, after, List.map_append, old, List.map_cons]
  refine .replace fun k mem => ?_
  obtain ⟨b, new, rfl⟩ := List.mem_map.mp mem
  obtain ⟨c, imported, file, open_, -⟩ := sprouted.exists_of_mem_buds new
  rw [show (g.step s next m).tree = (s.sprout bud m g.tree).1 from rfl,
    sprouted.chain_of_mem_buds g.grounded lt new, file]
  exact Scope.unseen_cons_lt (Scope.path_mem_files_of_mem_imports imported) open_

end Growth

namespace Scope

/-- Grows what is still to be grown, one node after the other. -/
def grow (s : Scope) (g : Growth) : Build Tree :=
  match next : g.buds with
  | [] => pure g.tree
  | bud :: _ => do
    let m ← s.disk.recall bud.file
    s.grow (g.step s next m)
termination_by g.ranks s
decreasing_by exact g.ranks_step_below s next m

/-- Builds the tree of a route, from its entry file. -/
def build (s : Scope) (r : Route) : Build Tree :=
  s.grow (.ofRoot ⟨r.route, s.disk.canonical r.entry, none⟩)

/-- The scope of a project on a disk: its aliases and its index. -/
def ofProject (d : Disk) (p : Project) : Scope := ⟨d, p.aliases, FileIndex.ofDisk d p.root⟩

end Scope

/-- The tree of a route built alone, with a cache of its own. -/
def Tree.ofRoute (d : Disk) (p : Project) (r : Route) : Except BuildError Tree :=
  (((Scope.ofProject d p).build r).run .empty).1

end RouteTrees
