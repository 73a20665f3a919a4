import RouteTrees.Proofs.Disk.Emptied
import RouteTrees.Proofs.Tree.Reach

/-!
# What a build does not look at

A build looks at the contents of the files that its entry reaches and at no others: what imports refer to
is settled by names and links. So on a disk where other files hold something else, be it no module at all,
every node is grown as before, and the build answers the same.
-/

namespace RouteTrees

open Script (Module)

/-- A disk with a page that imports itself, and another file beside it. -/
def Disk.beside (text : String) : Disk :=
  ⟨.dir [("page.ts", .file "import './page'".toUTF8), ("other.ts", .file text.toUTF8)], []⟩

namespace Disk

/-- Whatever is beside the page, the page is held. -/
theorem holdsPage_beside (text : String) : (beside text).HoldsPage where
  wellFormed := by
    refine ⟨rfl, ?_⟩
    have same : (beside "").SameNames (beside text) := rfl
    have orderly : (beside "").root.isOrderly = true := by decide
    exact (same.wellFormed ⟨rfl, orderly⟩).orderly
  there := by simp only [beside, Node.at?, Node.child?, List.lookup_cons_self]

theorem readText_beside (text : String) : (beside text).readText ⟨"/other.ts"⟩ = .ok text := by
  have there : (beside text).root.at? ["other.ts"] = some (.file text.toUTF8) := by
    simp [beside, Node.at?, Node.child?, List.lookup_cons]
  have spelled : Path.mk "/other.ts" = Place.toPath ["other.ts"] := by decide
  rw [spelled]
  exact readText_toPath (holdsPage_beside text).wellFormed _ there

end Disk

namespace Scope

variable {d d' : Disk} {aliases : AliasMap} {index : FileIndex}

/-- What an import refers to depends on the disk only by what paths mean. -/
theorem resolve?_congr (source : ∀ p, d.sourceAt? p = d'.sourceAt? p) (importer : Path)
    (specifier : String) : resolve? ⟨d, aliases, index⟩ importer specifier =
      resolve? ⟨d', aliases, index⟩ importer specifier := by
  have relative : relative? ⟨d, aliases, index⟩ = relative? ⟨d', aliases, index⟩ := by
    funext importer specifier
    unfold relative?
    dsimp only
    rw [source]
  have through : through? ⟨d, aliases, index⟩ = through? ⟨d', aliases, index⟩ := by
    funext a rest
    unfold through?
    dsimp only
    rw [source]
  rw [resolve?, resolve?, byAlias?, byAlias?, relative, through]

/-- A canonical name that a build asks for leads to the place that it spells, if anywhere. -/
theorem Reaches.eq_toPath {s : Scope} (wellFormed : s.disk.WellFormed)
    (index : ∀ p ∈ s.index.files, s.disk.IsCanonicalFile p) {entry p : Path}
    (reached : s.Reaches (s.disk.canonical entry) p) {place : Place}
    (located : s.disk.locate true p = .ok place) : p = place.toPath := by
  cases reached with
  | entry => exact Disk.eq_toPath_of_locate_canonical wellFormed located
  | @imported _ _ _ r _ _ _ resolved =>
    have isFile : s.disk.IsCanonicalFile r.path := by
      rcases isSource_of_resolve? resolved with ⟨q, source⟩ | indexed
      · exact Disk.place_of_sourceAt? source
      · exact index _ indexed
    obtain ⟨place', content, there, spelled⟩ := isFile
    have located' : s.disk.locate true (Place.toPath place') = .ok place' :=
      Disk.locate_toPath wellFormed there fun _ => Node.noConfusion
    rw [spelled] at located ⊢
    cases located.symm.trans located'
    rfl

section Lockstep

variable {s s' : Scope} {entry : Path}

/-- Growing one node gives the same in both scopes if imports refer to the same. -/
theorem sprout_congr (resolve : ∀ file specifier, s.resolve? file specifier = s'.resolve? file specifier)
    (bud : Bud) (m : Module) (t : Tree) : s.sprout bud m t = s'.sprout bud m t := by
  have add : s.addImport bud = s'.addImport bud := by
    funext grown specifier
    rw [addImport, addImport, resolve]
  rw [sprout, sprout, add]

/-- Two builds stay in step as long as all that is still to be grown is reached: they grow the same node
with the same module, and what it imports is reached as well. -/
theorem alone_grow_congr
    (resolve : ∀ file specifier, s.resolve? file specifier = s'.resolve? file specifier)
    (read : ∀ p, s.Reaches entry p → s.disk.module p = s'.disk.module p) (g : Growth)
    (inside : ∀ bud ∈ g.buds, s.Reaches entry bud.file) :
    (s.grow g).alone = (s'.grow g).alone := by
  induction g using grow.induct s with
  | case1 g done => rw [alone_grow_nil s done, alone_grow_nil s' done]
  | case2 g bud rest next ih =>
    have reached := inside bud (next ▸ List.mem_cons_self)
    rw [alone_grow_cons s next, alone_grow_cons s' next, ← read bud.file reached]
    cases found : s.disk.module bud.file with
    | error e => rfl
    | ok m =>
      have same : g.step s next m = g.step s' next m := by
        simp only [Growth.step, sprout_congr resolve]
      simp only
      rw [← same]
      refine ih m fun b mem => ?_
      rcases List.mem_append.mp mem with new | old
      · obtain ⟨c, imported, file, -⟩ := (Growth.sprouted s next m).exists_of_mem_buds new
        exact file ▸ reached.of_mem_imports found imported
      · exact inside b (next ▸ List.mem_cons_of_mem _ old)

end Lockstep

/-- A build answers the same on two disks with the same names, with whatever truthful caches, if every
file that its entry reaches on the first has the same content on the second. -/
theorem build_eq_of_reached_kept (d d' : Disk) (wellFormed : d.WellFormed) (names : d.SameNames d')
    (aliases : AliasMap) (root : Path) (r : Route)
    (kept : ∀ place content, d.root.at? place = some (.file content) →
      Reaches ⟨d, aliases, .ofDisk d root⟩ (d.canonical r.entry) (Place.toPath place) →
      d'.root.at? place = some (.file content))
    (c c' : ModuleCache)
    (truthful : c.Truthful d (Reaches ⟨d, aliases, .ofDisk d root⟩ (d.canonical r.entry)))
    (truthful' : c'.Truthful d' (Reaches ⟨d', aliases, .ofDisk d' root⟩ (d'.canonical r.entry))) :
    ((build ⟨d, aliases, .ofDisk d root⟩ r).run c).1 =
      ((build ⟨d', aliases, .ofDisk d' root⟩ r).run c').1 := by
  -- index, canonical entry and source files depend on names only
  have wellFormed' := names.wellFormed wellFormed
  have index : FileIndex.ofDisk d root = .ofDisk d' root :=
    names.answer_eq (FileIndex.ofDisk · root) (FileIndex.ofDisk_emptied · root)
  have canonical : d.canonical r.entry = d'.canonical r.entry :=
    names.answer_eq (·.canonical r.entry) (Disk.canonical_emptied · r.entry)
  have source (p : Path) : d.sourceAt? p = d'.sourceAt? p :=
    names.answer_eq (·.sourceAt? p) (Disk.sourceAt?_emptied · p)
  have named : ∀ p ∈ (FileIndex.ofDisk d root).files, d.IsCanonicalFile p :=
    fun _ mem => FileIndex.isCanonicalFile_of_mem_ofDisk wellFormed mem
  have read : ∀ p, Reaches ⟨d, aliases, .ofDisk d root⟩ (d.canonical r.entry) p →
      d.module p = d'.module p := by
    intro p reached
    have same : d.read p = d'.read p := by
      refine names.read_eq fun place content located there => kept place content there ?_
      exact reached.eq_toPath wellFormed named located ▸ reached
    rw [Disk.module, Disk.module, Disk.readText, Disk.readText, same]
  have resolve (file : Path) (specifier : String) :
      resolve? ⟨d, aliases, .ofDisk d root⟩ file specifier =
        resolve? ⟨d', aliases, .ofDisk d' root⟩ file specifier := by
    rw [← index]
    exact resolve?_congr source file specifier
  rw [run_build_eq_alone (wellFormed_ofDisk wellFormed wellFormed aliases root) r truthful,
    run_build_eq_alone (wellFormed_ofDisk wellFormed' wellFormed' aliases root) r truthful',
    build, build, ← canonical]
  exact alone_grow_congr resolve read _ fun b mem => List.mem_singleton.mp mem ▸ .entry

/-- The page that imports itself is built as before when the file beside it becomes no module. -/
theorem build_eq_of_reached_kept_sample :
    (Disk.beside "").SameNames (.beside "import") ∧
      (∃ m, (Disk.beside "").module ⟨"/other.ts"⟩ = .ok m) ∧
      (Disk.beside "import").module ⟨"/other.ts"⟩ = .error (.malformed ⟨"/other.ts"⟩ [Module.mistake]) ∧
      ∃ t, ((build ⟨.beside "", ⟨[]⟩, .ofDisk (.beside "") ⟨"/"⟩⟩ .sample).run .empty).1 = .ok t ∧
        ((build ⟨.beside "import", ⟨[]⟩, .ofDisk (.beside "import") ⟨"/"⟩⟩ .sample).run .empty).1 = .ok t := by
  have holds := Disk.holdsPage_beside ""
  have names : (Disk.beside "").SameNames (.beside "import") := rfl
  have scope := wellFormed_ofDisk holds.wellFormed holds.wellFormed ⟨[]⟩ ⟨"/"⟩
  obtain ⟨t, alone⟩ := exists_build_page holds ⟨[]⟩ (.ofDisk (.beside "") ⟨"/"⟩)
  have built := (run_build_eq_alone scope .sample (ModuleCache.truthful_empty _ _)).trans alone
  have same := build_eq_of_reached_kept (.beside "") (.beside "import") holds.wellFormed names ⟨[]⟩ ⟨"/"⟩
    .sample (fun place content there reached => ?kept) .empty .empty
    (ModuleCache.truthful_empty _ _) (ModuleCache.truthful_empty _ _)
  case kept =>
    rw [show Route.sample.entry = ⟨"/page.ts"⟩ from rfl, holds.canonical] at reached
    have path : Place.toPath place = Place.toPath ["page.ts"] :=
      (eq_page_of_reaches holds ⟨[]⟩ _ reached).trans (by decide)
    have here : place = ["page.ts"] := by
      refine Place.eq_of_same (Place.named_of_at? holds.wellFormed there)
        (Place.named_of_at? holds.wellFormed holds.there) ?_
      rw [path, Path.same_refl]
    subst here
    exact (Disk.holdsPage_beside "import").there.trans (holds.there.symm.trans there)
  refine ⟨names, ?_, ?_, t, built, same ▸ built⟩
  · have parsed : (Module.parse? (.ofPath ⟨"/other.ts"⟩) "").isSome := by decide +kernel
    obtain ⟨m, parsed⟩ := Option.isSome_iff_exists.mp parsed
    exact ⟨m, Disk.module_of_parse? (Disk.readText_beside _) parsed⟩
  · have refused : Module.parse? (.ofPath ⟨"/other.ts"⟩) "import" = none := by decide +kernel
    exact Disk.module_of_refused (Disk.readText_beside _) refused

end Scope

end RouteTrees
