import Mathlib.Data.Set.Card
import Mathlib.Logic.Relation
import RouteTrees.Proofs.Tree.Cycles
import RouteTrees.Proofs.Tree.Views

/-!
# Building comes to an end

A build takes turns: each grows the next node of its work list, and fails if the file of that gives no
module. No sequence of turns goes on for ever, from whatever list and cache it starts and whatever the
files import, because of what is left below the nodes of the list (`Ranks`). The answer of a build is what
its last turn has come to.

How deep the tree is has a bound of its own. What is above a node are files that differ and that the entry
reaches, so no node is deeper than there are such files.
-/

namespace RouteTrees

open Script (Module)

/-- A build behind another is run with the cache that the first has left. -/
theorem Build.run_bind {α β : Type} (b : Build α) (f : α → Build β) (c : ModuleCache) :
    (b.bind f).run c =
      match b.run c with
      | (.ok a, c') => (f a).run c'
      | (.error e, c') => (.error e, c') := by
  induction b generalizing c with
  | done a => rfl
  | failed e => rfl
  | lookUp file next ih =>
    rw [bind, run, run]
    exact ih (c.get? file) c
  | remember file m next ih =>
    rw [bind, run, run]
    exact ih (c.insert file m)

namespace Scope

variable {s : Scope} {g : Growth} {bud : Bud} {rest : List Bud} {m : Module}

/-! ## Turns -/

/-- The next node of a work list is grown with the module of its file, which the cache may know. -/
inductive Turn (s : Scope) : Growth × ModuleCache → Growth × ModuleCache → Prop where
  | grow {g : Growth} {bud : Bud} {rest : List Bud} {m : Module} {c c' : ModuleCache}
      (next : g.buds = bud :: rest) (read : (s.disk.recall bud.file).run c = (.ok m, c')) :
      Turn s (g, c) (g.step s next m, c')

/-- What turns have come to when no other can be taken: the tree if the work list is empty, otherwise the
error of the next file. -/
inductive Ended (s : Scope) :
    Growth × ModuleCache → Except BuildError Tree × ModuleCache → Prop where
  | grown {g : Growth} {c : ModuleCache} (done : g.buds = []) : Ended s (g, c) (.ok g.tree, c)
  | failed {g : Growth} {bud : Bud} {rest : List Bud} {e : BuildError} {c c' : ModuleCache}
      (next : g.buds = bud :: rest) (read : (s.disk.recall bud.file).run c = (.error e, c')) :
      Ended s (g, c) (.error e, c')

/-- Turns cannot be taken for ever. -/
theorem wellFounded_turn (s : Scope) : WellFounded fun later earlier => s.Turn earlier later := by
  have ranks : WellFounded (InvImage Ranks.Below fun state : Growth × ModuleCache => state.1.ranks s) :=
    InvImage.wf _ ⟨Ranks.acc⟩
  refine Subrelation.wf (fun turn => ?_) ranks
  cases turn with
  | grow next _ => exact Growth.ranks_step_below s next _

/-- Growing takes turns until none is left, and answers what they have come to. -/
theorem exists_turns (s : Scope) (g : Growth) (c : ModuleCache) :
    ∃ last, Relation.ReflTransGen s.Turn (g, c) last ∧ s.Ended last ((s.grow g).run c) := by
  induction g using grow.induct s generalizing c with
  | case1 g done =>
    have answer : s.grow g = .done g.tree := by
      rw [grow]
      split
      · rfl
      · next next => cases done.symm.trans next
    rw [answer]
    exact ⟨(g, c), .refl, .grown done⟩
  | case2 g bud rest next ih =>
    rw [grow_cons s next, Build.run_bind]
    cases read : (s.disk.recall bud.file).run c with
    | mk result c' =>
      cases result with
      | error e => exact ⟨(g, c), .refl, .failed next read⟩
      | ok m =>
        obtain ⟨last, turns, ended⟩ := ih m c'
        exact ⟨last, .head (.grow next read) turns, ended⟩

/-! ## Growing keeps a tree a tree -/

/-- Growing a node leaves the tree linked. -/
theorem linked_sprout (s : Scope) (bud : Bud) (m : Module) {t : Tree} (linked : t.Linked)
    (lt : bud.id < t.size) : (s.sprout bud m t).1.Linked := by
  have all : ∀ (specifiers : List String) (grown : Tree × List Bud),
      grown.1.Linked ∧ bud.id < grown.1.size →
      (specifiers.foldl (s.addImport bud) grown).1.Linked := by
    intro specifiers
    induction specifiers with
    | nil => exact fun grown kept => kept.1
    | cons specifier specifiers ih =>
      intro grown kept
      refine ih _ ?_
      unfold addImport
      cases s.resolve? bud.file specifier with
      | none => exact kept
      | some r =>
        refine ⟨kept.1.add kept.2, ?_⟩
        simp only [Tree.size_add]
        exact Nat.lt_succ_of_lt kept.2
  refine all m.imports _ ⟨linked.setKind _, ?_⟩
  rwa [Tree.size_setKind]

/-- A tree that was built is linked. -/
theorem linked_of_alone_build {r : Route} {t : Tree} (built : (s.build r).alone = .ok t) :
    t.Linked := by
  have step : ∀ g bud rest m (next : Growth.buds g = bud :: rest),
      s.disk.module bud.file = .ok m → g.tree.Linked → (g.step s next m).tree.Linked :=
    fun g bud rest m next _ linked =>
      linked_sprout s bud m linked (g.inTree bud (next ▸ List.mem_cons_self))
  obtain ⟨last, linked, -, rfl⟩ := exists_of_alone_grow step (Tree.linked_ofRoot _) built
  exact linked

end Scope

/-! ## What is above a node -/

namespace Tree.Complete

variable {s : Scope} {root : Component} {t : Tree} {id p : NodeId} {n : TreeNode}

/-- A node that has a child closes no cycle. -/
theorem cycle_of_parent (complete : t.Complete s root) (linked : t.Linked)
    (parent : t.parent? id = some p) (found : t.node? p = some n) : n.cycle = false := by
  have child : id ∈ n.children := childIds_of_node? found ▸ linked.mem_childIds_iff.mpr parent
  cases complete.finished p n found with
  | closed _ _ children =>
    rw [children] at child
    cases child
  | grown _ cycle => exact cycle

/-- Above a node are as many files as it is deep. They differ, and the root reaches them. -/
theorem above_spec (complete : t.Complete s root) (linked : t.Linked) (lt : id < t.size) :
    (t.above id).length = t.depthOf id ∧ (t.above id).Nodup ∧
      ∀ path ∈ t.above id, s.Reaches root.path path := by
  induction id, lt using linked.induct_from_root with
  | root =>
    obtain ⟨n, found⟩ := exists_node? linked.nonempty
    have none : n.parent = none := by rw [← linked.rooted, parent?, found, Option.bind_some]
    rw [above, linked.grounded.chain_eq found, none, depthOf, linked.ancestors_zero]
    exact ⟨rfl, List.nodup_nil, fun _ mem => absurd mem List.not_mem_nil⟩
  | child id p lt lt' parent ih =>
    obtain ⟨n, found⟩ := exists_node? lt
    obtain ⟨k, found'⟩ := exists_node? lt'
    obtain ⟨length, differ, reached⟩ := ih
    have here : n.parent = some p := by rw [← parent, parent?, found, Option.bind_some]
    have whole : t.above id = k.component.path :: t.above p := by
      rw [linked.grounded.above_eq found here, linked.grounded.chain_eq_cons_above found']
    rw [whole, linked.depthOf_eq parent, List.length_cons, length]
    refine ⟨rfl, List.nodup_cons.mpr ⟨fun mem => ?_, differ⟩, List.forall_mem_cons.mpr ⟨?_, reached⟩⟩
    · have marked := complete.marked p k found'
      rw [complete.cycle_of_parent linked parent found', eq_comm, List.any_eq_false] at marked
      exact marked _ mem (Path.same_refl _)
    · exact complete.reached p k found'

end Tree.Complete

namespace Scope

variable {s : Scope} {entry : Path} {m : Module} {t : Tree}

/-! ## How many files there are to be met -/

/-- From an entry only finitely many files are reached. -/
theorem finite_reaches (s : Scope) (entry : Path) : {p | s.Reaches entry p}.Finite := by
  refine (List.finite_toSet (entry :: s.files)).subset fun p reached => ?_
  cases reached with
  | entry => exact List.mem_cons_self
  | imported _ _ _ resolved => exact List.mem_cons_of_mem _ (path_mem_files resolved)

/-- No tree is deeper than its entry reaches files. -/
theorem maxDepth_le_of_alone_build {r : Route} (built : (s.build r).alone = .ok t) :
    t.maxDepth ≤ {p | s.Reaches (s.disk.canonical r.entry) p}.ncard := by
  have complete := complete_of_alone_build built
  have linked := linked_of_alone_build built
  refine Tree.maxDepth_le_iff.mpr fun id lt => ?_
  obtain ⟨length, differ, reached⟩ := complete.above_spec linked lt
  calc t.depthOf id
      = (t.above id).toFinset.card := by rw [List.toFinset_card_of_nodup differ, length]
    _ = ((t.above id).toFinset : Set Path).ncard := (Set.ncard_coe_finset _).symm
    _ ≤ {p | s.Reaches (s.disk.canonical r.entry) p}.ncard :=
        Set.ncard_le_ncard (fun p mem => reached p (List.mem_toFinset.mp mem)) (finite_reaches s _)

/-- Where the index holds names of files, different names that an entry reaches are those of different
files. -/
theorem injOn_fileAt?_reaches (wellFormed : s.disk.WellFormed)
    (index : ∀ p ∈ s.index.files, s.disk.IsCanonicalFile p)
    (read : s.disk.module (s.disk.canonical entry) = .ok m) :
    Set.InjOn s.disk.fileAt? {p | s.Reaches (s.disk.canonical entry) p} := by
  intro p reachedP q reachedQ same
  have isP := Reaches.isCanonicalFile wellFormed index read reachedP
  have isQ := Reaches.isCanonicalFile wellFormed index read reachedQ
  have alike := (isP.same_iff wellFormed isQ).mpr same
  exact (isP.isCanonical wellFormed).eq_of_same (isQ.isCanonical wellFormed) alike

/-- No sequence of turns goes on for ever, and a build answers what its turns come to. Its tree is not
deeper than the entry reaches files, of which there are finitely many: files by their canonical names, and
files on the disk if the index holds names of such. -/
theorem turns_end_and_maxDepth_le (s : Scope) (r : Route) (c : ModuleCache) :
    (WellFounded fun later earlier => s.Turn earlier later) ∧
    (∃ last, Relation.ReflTransGen s.Turn
        (.ofRoot ⟨r.route, s.disk.canonical r.entry, none⟩, c) last ∧
      s.Ended last ((s.build r).run c)) ∧
    {p | s.Reaches (s.disk.canonical r.entry) p}.Finite ∧
    (s.WellFormed → c.Truthful s.disk (s.Reaches (s.disk.canonical r.entry)) →
      ∀ t, ((s.build r).run c).1 = .ok t →
        t.maxDepth ≤ {p | s.Reaches (s.disk.canonical r.entry) p}.ncard ∧
        ((∀ p ∈ s.index.files, s.disk.IsCanonicalFile p) →
          t.maxDepth ≤
            (s.disk.fileAt? '' {p | s.Reaches (s.disk.canonical r.entry) p}).ncard)) := by
  refine ⟨s.wellFounded_turn, s.exists_turns _ c, s.finite_reaches _, ?_⟩
  intro wellFormed truthful t built
  rw [run_build_eq_alone wellFormed r truthful] at built
  have deep := maxDepth_le_of_alone_build built
  refine ⟨deep, fun index => ?_⟩
  obtain ⟨m, read⟩ := (complete_of_alone_build built).read_root
  rwa [(injOn_fileAt?_reaches wellFormed.disk index read).ncard_image]

/-- The page that imports itself has a tree that is no deeper than it reaches files. -/
theorem turns_end_and_maxDepth_le_sample :
    ∃ t, ((build ⟨.sample, ⟨[]⟩, .empty⟩ .sample).run .empty).1 = .ok t ∧
      t.maxDepth ≤ (Disk.sample.fileAt? ''
        {p | Reaches ⟨.sample, ⟨[]⟩, .empty⟩ (Disk.sample.canonical Route.sample.entry) p}).ncard := by
  have truthful := ModuleCache.truthful_empty Disk.sample
    (Reaches ⟨.sample, ⟨[]⟩, .empty⟩ (Disk.sample.canonical Route.sample.entry))
  obtain ⟨t, alone⟩ := exists_build_page Disk.holdsPage_sample ⟨[]⟩ .empty
  have built := (run_build_eq_alone wellFormed_sample .sample truthful).trans alone
  have whole := turns_end_and_maxDepth_le ⟨.sample, ⟨[]⟩, .empty⟩ .sample .empty
  obtain ⟨-, files⟩ := whole.2.2.2 wellFormed_sample truthful t built
  exact ⟨t, built, files fun _ mem => nomatch mem⟩

end Scope

end RouteTrees
