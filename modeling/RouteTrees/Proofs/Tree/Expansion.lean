import RouteTrees.Proofs.Tree.Visits
import RouteTrees.Tree.Nested

/-!
# A built tree is the expansion of its entry

What a route imports, said by recursion on the way from the root: a file that is met again closes a cycle,
any other is its own imports, each expanded in turn with the file put on the way. A build keeps a work
list and a table instead; read from its root, the table that it answers is this expansion.
-/

namespace RouteTrees

open Script (Module)

/-! ## Reading a table from a node on -/

namespace Tree

/-- What is read from a node of the table on: the node, and what is read from each of its children on.
A child that does not come behind its parent in the table is passed over. -/
def nest (t : Tree) (id : NodeId) : Nested :=
  match t.node? id with
  | none => .node "" none none false []
  | some n => .ofNode n (n.children.filterMap fun child =>
      if id < child ∧ child < t.size then some (t.nest child) else none)
termination_by t.size - id
decreasing_by
  next order => exact Nat.sub_lt_sub_left (Nat.lt_trans order.1 order.2) order.1

variable {t : Tree} {id : NodeId} {n : TreeNode}

/-- A node whose children come behind it is read with all of them. -/
theorem nest_eq (found : t.node? id = some n)
    (order : ∀ child ∈ n.children, id < child ∧ child < t.size) :
    t.nest id = .ofNode n (n.children.map t.nest) := by
  rw [nest, found]
  simp only
  congr 1
  rw [← List.filterMap_eq_map]
  exact List.filterMap_congr fun child mem => if_pos (order child mem)

end Tree

/-! ## The expansion -/

namespace Scope

/-- What a file that is met under a name gives, with the files that are on the way to it. -/
def expansion (s : Scope) (chain : List Path) (name : String) (path : Path) :
    Except ModuleError Nested :=
  if chain.any (·.same path) then .ok (.node name none (some path.text) true [])
  else
    match s.disk.module path with
    | .error e => .error e
    | .ok m => do
      let children ← (s.imports path m).attach.mapM fun c =>
        s.expansion (path :: chain) c.1.name c.1.path
      pure (.node name (some (if m.isClient then .client else .server)) (some path.text) false children)
termination_by s.room chain path
decreasing_by
  next new => exact room_cons_lt (path_mem_files_of_mem_imports c.2) new

variable {s : Scope} {chain : List Path} {name : String} {path : Path} {m : Module}

/-- What has been met on the way is a cycle, with nothing below it. -/
theorem expansion_of_met (met : chain.any (·.same path) = true) :
    s.expansion chain name path = .ok (.node name none (some path.text) true []) := by
  rw [expansion, if_pos met]

/-- What is new on the way has what it imports below it. -/
theorem expansion_of_new (new : chain.any (·.same path) = false) (read : s.disk.module path = .ok m)
    {children : List Nested}
    (expanded : ((s.imports path m).mapM fun c => s.expansion (path :: chain) c.name c.path) =
      .ok children) :
    s.expansion chain name path =
      .ok (.node name (some (if m.isClient then .client else .server)) (some path.text) false children) := by
  have attached : ((s.imports path m).attach.mapM fun c =>
      s.expansion (path :: chain) c.1.name c.1.path) = .ok children := by
    rw [List.mapM_subtype (g := fun c => s.expansion (path :: chain) c.name c.path) fun _ _ => rfl,
      List.unattach_attach, expanded]
  rw [expansion, if_neg (ne_true_of_eq_false new), read]
  simp only [attached]
  rfl

/-- Where each of some actions succeeds, so do all together. -/
theorem mapM_eq_ok {f : Component → Except ModuleError Nested} {g : NodeId → Nested}
    {cs : List Component} {ids : List NodeId}
    (each : List.Forall₂ (fun c id => f c = .ok (g id)) cs ids) : cs.mapM f = .ok (ids.map g) := by
  induction each with
  | nil => rfl
  | cons first _ ih =>
    rw [List.mapM_cons, first, ih]
    rfl

end Scope

namespace Tree.Complete

variable {s : Scope} {root : Component} {t : Tree}

/-- The children of a node of a complete tree know it for their parent. -/
theorem parent?_of_mem_childIds (complete : t.Complete s root) (id : NodeId) :
    ∀ child ∈ t.childIds id, t.parent? child = some id := by
  intro child mem
  rw [childIds] at mem
  cases found : t.node? id with
  | none => simp only [found, List.not_mem_nil] at mem
  | some n =>
    simp only [found] at mem
    cases complete.finished id n found with
    | closed _ _ children =>
      rw [children] at mem
      cases mem
    | grown m _ _ _ children =>
      obtain ⟨c, k, found', -, -, parent⟩ := Tree.exists_isChild children mem
      rw [Tree.parent?, found', Option.bind_some, parent]

/-- The children of a node of a complete tree come behind it. -/
theorem order (complete : t.Complete s root) {id : NodeId} {n : TreeNode}
    (found : t.node? id = some n) : ∀ child ∈ n.children, id < child ∧ child < t.size := by
  intro child mem
  have listed : child ∈ t.childIds id := by rw [childIds, found]; exact mem
  have parent := complete.parent?_of_mem_childIds id child listed
  exact ⟨complete.grounded child id parent, lt_size_of_parent? parent⟩

/-- What is read from any node of a complete tree on is the expansion of its file. By induction on how
many nodes come behind it. -/
theorem expansion_eq (complete : t.Complete s root) {id : NodeId} {n : TreeNode}
    (found : t.node? id = some n) :
    s.expansion (t.above id) n.component.name n.component.path = .ok (t.nest id) := by
  -- children have greater numbers than their parent, so less comes behind them
  induction behind : t.size - id using Nat.strongRecOn generalizing id n with
  | ind k ih =>
    subst behind
    have marked := complete.marked id n found
    have order := complete.order found
    rw [Tree.nest_eq found order, Nested.ofNode]
    cases complete.finished id n found with
    | closed cycle kind children =>
      rw [Scope.expansion_of_met (marked.symm.trans cycle), kind, children, cycle]
      rfl
    | grown m cycle read kind children =>
      have each : List.Forall₂ (fun c child =>
          s.expansion (n.component.path :: t.above id) c.name c.path = .ok (t.nest child))
          (s.imports n.component.path m) n.children := by
        refine children.imp fun c child isChild => ?_
        obtain ⟨k, found', name, path, parent⟩ := isChild
        have less : id < child := by
          refine complete.grounded child id ?_
          rw [Tree.parent?, found', Option.bind_some, parent]
        have lt := Tree.lt_size_of_node? found'
        have next := ih (t.size - child) (Nat.sub_lt_sub_left (Nat.lt_trans less lt) less) found' rfl
        rw [name, path, complete.grounded.above_eq found' parent,
          complete.grounded.chain_eq_cons_above found] at next
        exact next
      rw [Scope.expansion_of_new (marked.symm.trans cycle) read (Scope.mapM_eq_ok each), kind, cycle]
      rfl

/-- The expansion of the root is the whole tree. -/
theorem expansion_root_eq (complete : t.Complete s root) :
    s.expansion [] root.name root.path = .ok (t.nest 0) := by
  obtain ⟨n, found, becomes⟩ := complete.extend 0 _ rfl
  have parent : n.parent = none := becomes.parent
  have all := complete.expansion_eq found
  rw [becomes.name, becomes.path, Tree.above, complete.grounded.chain_eq found, parent] at all
  exact all

end Tree.Complete

namespace Scope

/-- The tree that a build answers, read from its root on, is the expansion of the route's entry under the
route's name: no import is lost, repeated or moved, and what is imported twice is expanded twice. Nor is
anything put below another file, as each node knows the one that has it as a child for its parent. -/
theorem expansion_eq_nest_of_build (s : Scope) (wellFormed : s.WellFormed) (r : Route)
    (c : ModuleCache) (truthful : c.Truthful s.disk (s.Reaches (s.disk.canonical r.entry))) (t : Tree)
    (built : ((s.build r).run c).1 = .ok t) :
    s.expansion [] r.route (s.disk.canonical r.entry) = .ok (t.nest 0) ∧
      ∀ id, ∀ child ∈ t.childIds id, t.parent? child = some id := by
  rw [run_build_eq_alone wellFormed r truthful] at built
  have complete := complete_of_alone_build built
  exact ⟨complete.expansion_root_eq, complete.parent?_of_mem_childIds⟩

/-- The page that imports itself through a link gives a root with a child of the client's kind and one that
closes a cycle. -/
theorem expansion_eq_nest_of_build_sample :
    ∃ t, ((build ⟨.site, ⟨[]⟩, .ofDisk .site ⟨"/"⟩⟩ .front).run .empty).1 = .ok t ∧
      t.nest 0 = .node "/" (some .server) (some "/app/page.ts") false
        [.node "./menu.ts" (some .client) (some "/app/menu.ts") false [],
         .node "./again/page.ts" none (some "/app/page.ts") true []] ∧
      ∀ id, ∀ child ∈ t.childIds id, t.parent? child = some id := by
  let s : Scope := ⟨.site, ⟨[]⟩, .ofDisk .site ⟨"/"⟩⟩
  have wellFormed : s.WellFormed := wellFormed_site ⟨[]⟩
  have truthful := ModuleCache.truthful_empty s.disk (s.Reaches (s.disk.canonical Route.front.entry))
  obtain ⟨t, alone⟩ := exists_build_front_site ⟨[]⟩ (.ofDisk .site ⟨"/"⟩)
  have built : ((s.build .front).run .empty).1 = .ok t :=
    (run_build_eq_alone wellFormed .front truthful).trans alone
  obtain ⟨expanded, parents⟩ := expansion_eq_nest_of_build s wellFormed .front .empty truthful t built
  refine ⟨t, built, ?_, parents⟩
  obtain ⟨page, readPage, imported, server⟩ := Disk.module_page_site
  obtain ⟨menu, readMenu, none, client⟩ := Disk.module_menu_site
  -- the client below the page imports nothing, and the link leads back to the page
  have below : s.expansion [⟨"/app/page.ts"⟩] "./menu.ts" ⟨"/app/menu.ts"⟩ =
      .ok (.node "./menu.ts" (some .client) (some "/app/menu.ts") false []) := by
    have all : (s.imports ⟨"/app/menu.ts"⟩ menu).mapM
        (fun c => s.expansion [⟨"/app/menu.ts"⟩, ⟨"/app/page.ts"⟩] c.name c.path) = .ok [] := by
      rw [imports, none]
      rfl
    rw [expansion_of_new (by decide) readMenu all, client]
    rfl
  have again : s.expansion [⟨"/app/page.ts"⟩] "./again/page.ts" ⟨"/app/page.ts"⟩ =
      .ok (.node "./again/page.ts" .none (some "/app/page.ts") true []) := expansion_of_met (by decide)
  have all : (s.imports ⟨"/app/page.ts"⟩ page).mapM (fun c => s.expansion [⟨"/app/page.ts"⟩] c.name c.path) =
      .ok [.node "./menu.ts" (some .client) (some "/app/menu.ts") false [],
        .node "./again/page.ts" .none (some "/app/page.ts") true []] := by
    rw [imports_page_site ⟨[]⟩ _ imported, List.mapM_cons, List.mapM_cons, below, again]
    rfl
  rw [show s.disk.canonical Route.front.entry = _ from Disk.canonical_site.1, expansion_of_new rfl readPage all,
    server] at expanded
  exact (Except.ok.inj expanded).symm

end Scope

end RouteTrees
