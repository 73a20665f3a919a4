import RouteTrees.Proofs.Tree.Visits

/-!
# Cycles are cycles of files

Whether a node closes a cycle is found out by comparing paths. All ways to find an import answer canonical
names, and so is the name of an entry; with one such name for each file, what is found out about paths
holds of the files that they lead to, through whatever links and aliases an import has come to them.
-/

namespace RouteTrees

/-! ## The files of nodes -/

/-- The place of the file that a path leads to, if it is one. -/
def Disk.fileAt? (d : Disk) (p : Path) : Option Place :=
  match d.locate true p with
  | .ok place => if (d.root.at? place).any Node.isFile then some place else none
  | .error _ => none

/-- A canonical name of a file leads to the place that it spells. -/
theorem Disk.IsCanonicalFile.exists_fileAt? {d : Disk} (wellFormed : d.WellFormed) {p : Path}
    (isFile : d.IsCanonicalFile p) : ∃ place, d.fileAt? p = some place ∧ p = place.toPath := by
  obtain ⟨place, content, there, rfl⟩ := isFile
  have located : d.locate true (Place.toPath place) = .ok place :=
    locate_toPath wellFormed there fun _ => Node.noConfusion
  refine ⟨place, ?_, rfl⟩
  rw [fileAt?, located]
  simp only [there, Option.any_some, Node.isFile, if_true]

/-- Canonical names say the same if they lead to the same file. -/
theorem Disk.IsCanonicalFile.same_iff {d : Disk} (wellFormed : d.WellFormed) {p q : Path}
    (isP : d.IsCanonicalFile p) (isQ : d.IsCanonicalFile q) :
    p.same q = true ↔ d.fileAt? p = d.fileAt? q := by
  obtain ⟨place, leads, spelled⟩ := isP.exists_fileAt? wellFormed
  obtain ⟨place', leads', spelled'⟩ := isQ.exists_fileAt? wellFormed
  constructor
  · intro same
    rw [(isP.isCanonical wellFormed).eq_of_same (isQ.isCanonical wellFormed) same]
  · intro same
    rw [leads, leads'] at same
    rw [spelled, spelled', Option.some.inj same]
    exact Path.same_refl _

/-- All files that a readable entry reaches have canonical names if the index holds only such. -/
theorem Scope.Reaches.isCanonicalFile {s : Scope} (wellFormed : s.disk.WellFormed)
    (index : ∀ p ∈ s.index.files, s.disk.IsCanonicalFile p) {entry path : Path} {m : Script.Module}
    (read : s.disk.module (s.disk.canonical entry) = .ok m)
    (reached : s.Reaches (s.disk.canonical entry) path) : s.disk.IsCanonicalFile path := by
  cases reached with
  | entry => exact Disk.isCanonicalFile_of_module wellFormed read
  | imported _ _ _ resolved =>
    rcases Scope.isSource_of_resolve? resolved with ⟨p, source⟩ | indexed
    · exact Disk.place_of_sourceAt? source
    · exact index _ indexed

namespace Tree

variable {t : Tree} {s : Scope} {id : NodeId} {n : TreeNode}

/-- The place of the file of a node. -/
def fileAt? (t : Tree) (d : Disk) (id : NodeId) : Option Place := (t.path? id).bind d.fileAt?

/-- Whether a node closes a cycle. -/
def isCycle (t : Tree) (id : NodeId) : Bool := (t.node? id).any (·.cycle)

/-- What is above a node are the files of the other nodes on the way up. -/
theorem Grounded.above_eq_filterMap (grounded : t.Grounded) (found : t.node? id = some n) :
    t.above id = (t.ancestors id).tail.filterMap t.path? := by
  have path : t.path? id = some n.component.path := by rw [path?, found, Option.map_some]
  rw [above, chain, grounded.ancestors_eq (lt_size_of_node? found),
    List.filterMap_cons_some path, List.tail_cons, List.tail_cons]

theorem Grounded.exists_of_mem_ancestors (grounded : t.Grounded) (lt : id < t.size) {a : NodeId}
    (mem : a ∈ t.ancestors id) : ∃ n, t.node? a = some n :=
  exists_node? (Nat.lt_of_le_of_lt (grounded.le_of_mem_climb mem) lt)

namespace Complete

variable {d : Disk} {root : Component}

/-- The root of a complete tree was read. -/
theorem read_root (complete : t.Complete s root) : ∃ m, s.disk.module root.path = .ok m := by
  obtain ⟨n, found, becomes⟩ := complete.extend 0 _ rfl
  have parent : n.parent = none := becomes.parent
  have marked := complete.marked 0 n found
  rw [above, complete.grounded.chain_eq found, parent] at marked
  cases complete.finished 0 n found with
  | closed cycle => cases cycle.symm.trans marked
  | grown m _ read => exact ⟨m, becomes.path ▸ read⟩

/-- All files of a complete tree have canonical names if the root has, and the index holds only such. -/
theorem isCanonicalFile (complete : t.Complete s root) (wellFormed : s.disk.WellFormed)
    (index : ∀ p ∈ s.index.files, s.disk.IsCanonicalFile p) {entry : Path}
    (canonical : root.path = s.disk.canonical entry) (found : t.node? id = some n) :
    s.disk.IsCanonicalFile n.component.path := by
  have reached := complete.reached id n found
  obtain ⟨m, read⟩ := complete.read_root
  rw [canonical] at reached read
  exact reached.isCanonicalFile wellFormed index read

/-- A node closes a cycle just if its file is that of a node above it. -/
theorem isCycle_iff (complete : t.Complete s root)
    (files : ∀ id n, t.node? id = some n → s.disk.IsCanonicalFile n.component.path)
    (wellFormed : s.disk.WellFormed) (lt : id < t.size) :
    t.isCycle id = true ↔
      ∃ a ∈ (t.ancestors id).tail, t.fileAt? s.disk a = t.fileAt? s.disk id := by
  obtain ⟨n, found⟩ := exists_node? lt
  have here : t.fileAt? s.disk id = s.disk.fileAt? n.component.path := by
    rw [fileAt?, path?, found, Option.map_some, Option.bind_some]
  rw [isCycle, found, Option.any_some, complete.marked id n found, here, List.any_eq_true,
    complete.grounded.above_eq_filterMap found]
  constructor
  · rintro ⟨p, mem, same⟩
    obtain ⟨a, listed, path⟩ := List.mem_filterMap.mp mem
    obtain ⟨k, found', rfl⟩ := Option.map_eq_some_iff.mp path
    refine ⟨a, listed, ?_⟩
    rw [fileAt?, path, Option.bind_some]
    exact ((files a k found').same_iff wellFormed (files id n found)).mp same
  · rintro ⟨a, listed, same⟩
    obtain ⟨k, found'⟩ := complete.grounded.exists_of_mem_ancestors lt (List.mem_of_mem_tail listed)
    have path : t.path? a = some k.component.path := by rw [path?, found', Option.map_some]
    rw [fileAt?, path, Option.bind_some] at same
    exact ⟨_, List.mem_filterMap.mpr ⟨a, listed, path⟩,
      ((files a k found').same_iff wellFormed (files id n found)).mpr same⟩

/-- The nodes on the way to a node that close no cycle have different files. By induction on the number
of the node, as the way up goes on from its parent. -/
theorem nodup_files (complete : t.Complete s root)
    (files : ∀ id n, t.node? id = some n → s.disk.IsCanonicalFile n.component.path)
    (wellFormed : s.disk.WellFormed) (lt : id < t.size) :
    (((t.ancestors id).filter fun a => !t.isCycle a).map (t.fileAt? s.disk)).Nodup := by
  induction id using Nat.strongRecOn with
  | ind id ih =>
    obtain ⟨above, whole, differ⟩ : ∃ above, t.ancestors id = id :: above ∧
        ((above.filter fun a => !t.isCycle a).map (t.fileAt? s.disk)).Nodup := by
      rw [complete.grounded.ancestors_eq lt]
      cases parent : t.parent? id with
      | none => exact ⟨[], rfl, List.nodup_nil⟩
      | some p =>
        have less := complete.grounded id p parent
        exact ⟨t.ancestors p, rfl, ih p less (Nat.lt_trans less lt)⟩
    rw [whole, List.filter_cons]
    cases cycle : t.isCycle id with
    | true => exact differ
    | false =>
      refine List.nodup_cons.mpr ⟨fun mem => ?_, differ⟩
      obtain ⟨a, listed, same⟩ := List.mem_map.mp mem
      have met : t.isCycle id = true := by
        rw [complete.isCycle_iff files wellFormed lt, whole, List.tail_cons]
        exact ⟨a, (List.mem_filter.mp listed).1, same⟩
      cases cycle.symm.trans met

end Complete

end Tree

namespace Scope

/-- In the tree that a build answers, every node is that of a file, the nodes on a way from the root that
close no cycle have different files, and a node closes a cycle just if its file is that of a node above
it. These are the nodes without a kind, and nothing is below them. -/
theorem cycles_of_build (d : Disk) (wellFormed : d.WellFormed) (aliases : AliasMap) (root : Path)
    (r : Route) (c : ModuleCache)
    (truthful : c.Truthful d (Reaches ⟨d, aliases, .ofDisk d root⟩ (d.canonical r.entry))) (t : Tree)
    (built : ((build ⟨d, aliases, .ofDisk d root⟩ r).run c).1 = .ok t) :
    ∀ id n, t.node? id = some n →
      (t.fileAt? d id).isSome = true ∧
      (((t.ancestors id).filter fun a => !t.isCycle a).map (t.fileAt? d)).Nodup ∧
      (n.cycle = true ↔ ∃ a ∈ (t.ancestors id).tail, t.fileAt? d a = t.fileAt? d id) ∧
      (n.cycle = true ↔ n.component.kind = none) ∧
      (n.cycle = true → n.children = []) := by
  have index : ∀ p ∈ (FileIndex.ofDisk d root).files, d.IsCanonicalFile p :=
    fun _ mem => FileIndex.isCanonicalFile_of_mem_ofDisk wellFormed mem
  -- the cache does not count, so the tree is that of a build alone, which is complete
  rw [run_build_eq_alone (wellFormed_ofDisk wellFormed wellFormed aliases root) r truthful] at built
  have complete := complete_of_alone_build built
  have files : ∀ id n, t.node? id = some n → d.IsCanonicalFile n.component.path :=
    fun _ _ => complete.isCanonicalFile wellFormed index rfl
  intro id n found
  have lt := Tree.lt_size_of_node? found
  refine ⟨?_, complete.nodup_files files wellFormed lt, ?_, ?_, ?_⟩
  · obtain ⟨place, leads, -⟩ := (files id n found).exists_fileAt? wellFormed
    rw [Tree.fileAt?, Tree.path?, found, Option.map_some, Option.bind_some, leads, Option.isSome_some]
  · rw [← complete.isCycle_iff files wellFormed lt, Tree.isCycle, found, Option.any_some]
  · cases complete.finished id n found with
    | closed cycle kind => exact ⟨fun _ => kind, fun _ => cycle⟩
    | grown _ cycle _ kind =>
      rw [cycle, kind]
      exact iff_of_false Bool.false_ne_true (Option.some_ne_none _)
  · intro closes
    cases complete.finished id n found with
    | closed _ _ children => exact children
    | grown _ cycle => cases cycle.symm.trans closes

/-- The page that imports itself through a link has a tree in which this holds, with a node that closes a cycle
though the import spells another path than that of the page. -/
theorem cycles_of_build_sample :
    ∃ t, ((build ⟨.site, ⟨[]⟩, .ofDisk .site ⟨"/"⟩⟩ .front).run .empty).1 = .ok t ∧
      (∀ id n, t.node? id = some n →
        (t.fileAt? .site id).isSome = true ∧
        (((t.ancestors id).filter fun a => !t.isCycle a).map (t.fileAt? .site)).Nodup ∧
        (n.cycle = true ↔ ∃ a ∈ (t.ancestors id).tail, t.fileAt? .site a = t.fileAt? .site id) ∧
        (n.cycle = true ↔ n.component.kind = none) ∧
        (n.cycle = true → n.children = [])) ∧
      ∃ id n, t.node? id = some n ∧ n.component.name = "./again/page.ts" ∧ n.cycle = true := by
  let s : Scope := ⟨.site, ⟨[]⟩, .ofDisk .site ⟨"/"⟩⟩
  have truthful := ModuleCache.truthful_empty s.disk (s.Reaches (s.disk.canonical Route.front.entry))
  obtain ⟨t, alone⟩ := exists_build_front_site ⟨[]⟩ (.ofDisk .site ⟨"/"⟩)
  have built := (run_build_eq_alone (wellFormed_site ⟨[]⟩) .front truthful).trans alone
  refine ⟨t, built, cycles_of_build .site Disk.wellFormed_site ⟨[]⟩ ⟨"/"⟩ .front .empty truthful t built, ?_⟩
  have complete := complete_of_alone_build alone
  obtain ⟨page, read, imported, -⟩ := Disk.module_page_site
  obtain ⟨root, found, becomes⟩ := complete.extend 0 _ rfl
  have path : root.component.path = ⟨"/app/page.ts"⟩ := becomes.path.trans Disk.canonical_site.1
  have noParent : root.parent = none := becomes.parent
  have way : t.chain 0 = [⟨"/app/page.ts"⟩] := by
    rw [complete.grounded.chain_eq found, noParent, path]
  -- the root closes no cycle, so it has the children that the module of the page calls for
  cases complete.finished 0 root found with
  | closed cycle =>
    have marked := complete.marked 0 root found
    rw [Tree.above, way] at marked
    cases cycle.symm.trans marked
  | grown m _ read' _ children =>
    rw [path] at read' children
    cases read.symm.trans read'
    rw [show s.imports _ _ = _ from imports_page_site ⟨[]⟩ _ imported] at children
    obtain ⟨_, _, -, later, -⟩ := List.forall₂_cons_left_iff.mp children
    obtain ⟨id, _, ⟨n, found', name, path', parent⟩, -, -⟩ := List.forall₂_cons_left_iff.mp later
    refine ⟨id, n, found', name, ?_⟩
    rw [complete.marked id n found', complete.grounded.above_eq found' parent, way, path']
    decide

end Scope

end RouteTrees
