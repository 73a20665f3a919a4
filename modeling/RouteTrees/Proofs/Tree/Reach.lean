import RouteTrees.Proofs.Project.Entries
import RouteTrees.Proofs.Tree.Sharing
import RouteTrees.Tree.Growth

/-!
# What a build reads

The files that can be reached from an entry by imports are all that a build of its tree asks for. On a
well-formed disk and with an index of canonical names these differ in what they say as soon as they
differ, so a build reads them from a shared cache as from the disk: its answer is the one alone.
-/

namespace RouteTrees

open Script (Module)

namespace Disk

variable {d : Disk} {p : Path} {m : Module}

/-- A module can only be read from a file. -/
theorem locate_of_module (read : d.module p = .ok m) :
    ∃ place content, d.locate true p = .ok place ∧ d.root.at? place = some (.file content) := by
  rw [Disk.module] at read
  split at read
  · cases read
  · next text isText =>
    rw [readText] at isText
    split at isText
    · cases isText
    · next content isFile =>
      rw [Disk.read] at isFile
      split at isFile
      · cases isFile
      · next place located =>
        split at isFile
        · next there => exact ⟨place, _, located, there⟩
        · cases isFile
        · cases isFile

/-- A canonical name that leads somewhere is the path of where it leads. -/
theorem eq_toPath_of_locate_canonical (wellFormed : d.WellFormed) {place : Place}
    (located : d.locate true (d.canonical p) = .ok place) : d.canonical p = place.toPath := by
  cases named : d.locate true p with
  | error e =>
    rw [canonical, named] at located
    cases named.symm.trans located
  | ok place' =>
    obtain ⟨n, there, plain⟩ := isPlain_of_locate named
    rw [canonical_of_locate named] at located ⊢
    cases (locate_toPath wellFormed there plain).symm.trans located
    rfl

/-- A canonical name that a module can be read from is that of a file. -/
theorem isCanonicalFile_of_module (wellFormed : d.WellFormed)
    (read : d.module (d.canonical p) = .ok m) : d.IsCanonicalFile (d.canonical p) := by
  obtain ⟨place, content, located, there⟩ := locate_of_module read
  exact ⟨place, content, there, eq_toPath_of_locate_canonical wellFormed located⟩

/-- A file gives the module that its text is. -/
theorem exists_module_of_at? (wellFormed : d.WellFormed) (place : Place) {text : String}
    (there : d.root.at? place = some (.file text.toUTF8)) {imports : List String} {isClient : Bool}
    (parsed : (Module.parse? (.ofPath place.toPath) text).map (fun m => (m.imports, m.isClient)) =
      some (imports, isClient)) :
    ∃ m, d.module place.toPath = .ok m ∧ m.imports = imports ∧ m.isClient = isClient := by
  obtain ⟨m, found, same⟩ := Option.map_eq_some_iff.mp parsed
  cases same
  exact ⟨m, module_of_parse? (readText_toPath wellFormed place there) found, rfl, rfl⟩

/-- A file whose text is no module gives none. -/
theorem module_of_at?_of_refused (wellFormed : d.WellFormed) (place : Place) {text : String}
    (there : d.root.at? place = some (.file text.toUTF8))
    (refused : Module.parse? (.ofPath place.toPath) text = none) :
    d.module place.toPath = .error (.malformed place.toPath [Module.mistake]) :=
  module_of_refused (readText_toPath wellFormed place there) refused

end Disk

namespace Scope

variable {s : Scope} {entry file : Path} {m : Module}

/-! ## Reaching -/

/-- The files that are reached from an entry by any number of imports. -/
inductive Reaches (s : Scope) (entry : Path) : Path → Prop where
  | entry : Reaches s entry entry
  | imported {file m specifier r} (reached : Reaches s entry file)
      (read : s.disk.module file = .ok m) (mem : specifier ∈ m.imports)
      (resolved : s.resolve? file specifier = some r) : Reaches s entry r.path

/-- What a file that is reached imports of the project is reached. -/
theorem Reaches.of_mem_imports (reached : s.Reaches entry file) (read : s.disk.module file = .ok m)
    {c : Component} (mem : c ∈ s.imports file m) : s.Reaches entry c.path := by
  obtain ⟨specifier, listed, found⟩ := List.mem_filterMap.mp mem
  obtain ⟨r, resolved, rfl⟩ := Option.map_eq_some_iff.mp found
  exact .imported reached read listed resolved

/-- Whether imports refer to files by canonical names: the disk is one that paths can spell, and the index
holds such names, of whatever it has been made. Without the latter a path that goes on behind a file, such
as one with a slash at its end, would say the same as the file's name and yet lead nowhere. -/
structure WellFormed (s : Scope) : Prop where
  disk : s.disk.WellFormed
  index : ∀ p ∈ s.index.files, p.IsCanonical

/-- An index that was made of what there was holds canonical names, also once the disk is another. -/
theorem wellFormed_ofFiles {d old : Disk} (wellFormed : d.WellFormed) (wellFormed' : old.WellFormed)
    (aliases : AliasMap) {files : List Path}
    (existed : ∀ p ∈ files, ∃ place, old.locate true p = .ok place) :
    (Scope.mk d aliases (.ofFiles old.canonical files)).WellFormed where
  disk := wellFormed
  index p mem := by
    have sorted := Path.mem_of_mem_dropRepeats mem
    obtain ⟨source, listed, rfl⟩ := List.mem_map.mp (List.mem_mergeSort.mp sorted)
    obtain ⟨place, located⟩ := existed source listed
    exact Disk.isCanonical_of_locate wellFormed' located

/-- A project is well formed if its disk is and its index was made of a disk. -/
theorem wellFormed_ofDisk {d old : Disk} (wellFormed : d.WellFormed) (wellFormed' : old.WellFormed)
    (aliases : AliasMap) (root : Path) : (Scope.mk d aliases (.ofDisk old root)).WellFormed := by
  refine wellFormed_ofFiles wellFormed wellFormed' aliases fun p mem => ?_
  obtain ⟨place, _, located, -⟩ := Disk.leadsTo_of_mem_sources wellFormed' mem
  exact ⟨place, located⟩

/-- What an import refers to is canonical. -/
theorem WellFormed.isCanonical_of_resolve? (wellFormed : s.WellFormed) {specifier : String}
    {r : Resolution} (resolved : s.resolve? file specifier = some r) : r.path.IsCanonical := by
  rcases isSource_of_resolve? resolved with ⟨p, source⟩ | indexed
  · have isFile : s.disk.IsCanonicalFile r.path := Disk.place_of_sourceAt? source
    exact isFile.isCanonical wellFormed.disk
  · exact wellFormed.index r.path indexed

/-- Files that are reached and say the same are the same. -/
theorem WellFormed.distinct_reaches (wellFormed : s.WellFormed) (entry : Path) :
    Path.Distinct (s.Reaches (s.disk.canonical entry)) := by
  cases read : s.disk.module (s.disk.canonical entry) with
  | ok m =>
    have canonical : ∀ p, s.Reaches (s.disk.canonical entry) p → p.IsCanonical := by
      intro p reached
      cases reached with
      | entry =>
        have isFile := Disk.isCanonicalFile_of_module wellFormed.disk read
        exact isFile.isCanonical wellFormed.disk
      | imported _ _ _ resolved => exact wellFormed.isCanonical_of_resolve? resolved
    exact fun p q reachedP reachedQ same =>
      (canonical p reachedP).eq_of_same (canonical q reachedQ) same
  | error e =>
    -- nothing is imported by a file that cannot be read
    have only : ∀ p, s.Reaches (s.disk.canonical entry) p → p = s.disk.canonical entry := by
      intro p reached
      induction reached with
      | entry => rfl
      | imported _ read' _ _ ih =>
        rw [ih] at read'
        cases read.symm.trans read'
    exact fun p q reachedP reachedQ _ => (only p reachedP).trans (only q reachedQ).symm

/-! ## What is left on the way -/

/-- What is left to be met behind a file, with the files that are on the way to it. A file that imports
cannot refer to can only be the first. -/
def room (s : Scope) (chain : List Path) (path : Path) : Nat :=
  2 * s.unseen chain + if path ∈ s.files then 0 else 1

/-- A chain that goes on leaves no more unseen. -/
theorem unseen_cons_le (s : Scope) (path : Path) (chain : List Path) :
    s.unseen (path :: chain) ≤ s.unseen chain := by
  rw [unseen, unseen, ← List.countP_eq_length_filter, ← List.countP_eq_length_filter]
  refine List.countP_mono_left fun file _ new => ?_
  rw [List.any_cons, Bool.not_or, Bool.and_eq_true] at new
  exact new.2

/-- Less is left behind what a file imports, if the file is new. -/
theorem room_cons_lt {s : Scope} {path file : Path} {chain : List Path} (mem : file ∈ s.files)
    (new : ¬chain.any (·.same path) = true) : s.room (path :: chain) file < s.room chain path := by
  rw [room, room, if_pos mem]
  by_cases known : path ∈ s.files
  · have less := unseen_cons_lt known (Bool.eq_false_iff.mpr new)
    rw [if_pos known]
    omega
  · have le := unseen_cons_le s path chain
    rw [if_neg known]
    omega

/-! ## Growing alone -/

variable {g : Growth} {bud : Bud} {rest : List Bud}

theorem alone_grow_nil (s : Scope) (done : g.buds = []) : (s.grow g).alone = .ok g.tree := by
  rw [grow]
  split
  · rfl
  · next next => cases done.symm.trans next

/-- A growth goes on with its first bud, given the module of its file. -/
theorem grow_cons (s : Scope) (next : g.buds = bud :: rest) :
    s.grow g = (s.disk.recall bud.file).bind fun m => s.grow (g.step s next m) := by
  rw [grow]
  split
  · next done => cases next.symm.trans done
  · next _ _ next' =>
    cases next.symm.trans next'
    rfl

/-- Growing alone goes on with the module of the next node's file, or fails for want of one. -/
theorem alone_grow_cons (s : Scope) (next : g.buds = bud :: rest) : (s.grow g).alone =
    match s.disk.module bud.file with
    | .ok m => (s.grow (g.step s next m)).alone
    | .error e => .error (.module e) := by
  rw [grow_cons s next]
  exact Build.alone_recall_bind s.disk bud.file _

/-- What holds of a growth and is kept by growing the next node holds when nothing is left to be grown. -/
theorem exists_of_alone_grow {Holds : Growth → Prop}
    (step : ∀ g bud rest m (next : Growth.buds g = bud :: rest), s.disk.module bud.file = .ok m →
      Holds g → Holds (g.step s next m))
    (begins : Holds g) {t : Tree} (built : (s.grow g).alone = .ok t) :
    ∃ last, Holds last ∧ last.buds = [] ∧ last.tree = t := by
  induction g using grow.induct s with
  | case1 g done =>
    rw [alone_grow_nil s done] at built
    exact ⟨g, begins, done, Except.ok.inj built⟩
  | case2 g bud rest next ih =>
    rw [alone_grow_cons s next] at built
    split at built
    · next m read => exact ih m (step g bud rest m next read begins) built
    · cases built

/-- Growing only reads files of a set that holds what it begins with and is closed under imports. -/
theorem reads_grow {files : Path → Prop}
    (closed : ∀ file m c, files file → s.disk.module file = .ok m → c ∈ s.imports file m →
      files c.path) (g : Growth) (inside : ∀ bud ∈ g.buds, files bud.file) :
    (s.grow g).Reads s.disk files := by
  induction g using grow.induct s with
  | case1 g done =>
    rw [grow]
    split
    · exact .done _
    · next next => cases done.symm.trans next
  | case2 g bud rest next ih =>
    have asked := inside bud (next ▸ List.mem_cons_self)
    rw [grow_cons s next]
    refine Build.Reads.recall_bind asked fun m read => ih m fun b mem => ?_
    rcases List.mem_append.mp mem with new | old
    · obtain ⟨c, imported, file, -⟩ := (Growth.sprouted s next m).exists_of_mem_buds new
      exact file ▸ closed bud.file m c asked read imported
    · exact inside b (next ▸ List.mem_cons_of_mem _ old)

/-- A build only reads files of a set that holds its entry and is closed under imports. -/
theorem reads_build {files : Path → Prop}
    (closed : ∀ file m c, files file → s.disk.module file = .ok m → c ∈ s.imports file m →
      files c.path) {r : Route} (entry : files (s.disk.canonical r.entry)) :
    (s.build r).Reads s.disk files :=
  reads_grow closed _ fun _ mem => List.mem_singleton.mp mem ▸ entry

/-- The answer of a build is the one alone, whatever a cache knows that is truthful about the files that
the build can reach. -/
theorem run_build_eq_alone (wellFormed : s.WellFormed) (r : Route) {c : ModuleCache}
    (truthful : c.Truthful s.disk (s.Reaches (s.disk.canonical r.entry))) :
    ((s.build r).run c).1 = (s.build r).alone := by
  have reads : (s.build r).Reads s.disk (s.Reaches (s.disk.canonical r.entry)) :=
    reads_build (fun _ _ _ reached read mem => reached.of_mem_imports read mem) .entry
  exact (reads.run (wellFormed.distinct_reaches r.entry) truthful).1

end Scope

/-! ## A page that imports itself -/

/-- Whether a disk holds a certain page, which imports itself and nothing else. -/
structure Disk.HoldsPage (d : Disk) : Prop where
  wellFormed : d.WellFormed
  there : d.root.at? ["page.ts"] = some (.file "import './page'".toUTF8)

/-- The route of the sample disk. -/
def Route.sample : Route := ⟨"/", ⟨"/page.ts"⟩⟩

namespace Disk.HoldsPage

variable {d : Disk}

theorem locate (holds : d.HoldsPage) : d.locate true ⟨"/page.ts"⟩ = .ok ["page.ts"] := by
  have spelled : Path.mk "/page.ts" = Place.toPath ["page.ts"] := by decide
  rw [spelled]
  exact locate_toPath holds.wellFormed holds.there fun _ => Node.noConfusion

theorem canonical (holds : d.HoldsPage) : d.canonical ⟨"/page.ts"⟩ = ⟨"/page.ts"⟩ := by
  rw [canonical_of_locate holds.locate]
  decide

/-- The held page imports itself and nothing else. -/
theorem module (holds : d.HoldsPage) : ∃ m, d.module ⟨"/page.ts"⟩ = .ok m ∧
    m.imports = ["./page"] ∧ m.isClient = false := by
  have spelled : Path.mk "/page.ts" = Place.toPath ["page.ts"] := by decide
  rw [spelled]
  exact exists_module_of_at? holds.wellFormed _ holds.there (by decide +kernel)

end Disk.HoldsPage

namespace Scope

section Page

variable {d : Disk} (holds : d.HoldsPage) (aliases : AliasMap) (index : FileIndex)

include holds

/-- The import refers to the page, whatever else there is. -/
theorem resolve?_page :
    resolve? ⟨d, aliases, index⟩ ⟨"/page.ts"⟩ "./page" = some ⟨⟨"/page.ts"⟩, .relative⟩ := by
  have isFile : d.isFile ⟨"/page.ts"⟩ = true := Disk.isFile_iff.mpr ⟨_, _, holds.locate, holds.there⟩
  have notSource : (Path.mk "/page").isSource = false := by decide
  have first : (Path.mk "/page").addExtension "ts" = ⟨"/page.ts"⟩ := by decide
  have source : d.sourceAt? ⟨"/page"⟩ = some ⟨"/page.ts"⟩ := by
    simp only [Disk.sourceAt?, Disk.candidates, notSource, Convention.resolveExtensions, List.map_cons,
      first, Bool.false_eq_true, if_false, List.nil_append, List.cons_append, List.find?_cons, isFile,
      Option.map_some, holds.canonical]
  have target : (((Path.mk "/page.ts").parent?.getD ⟨"."⟩).join ⟨"./page"⟩).clean = ⟨"/page"⟩ := by
    decide
  exact resolve?_of_sourceAt? (by decide) (target ▸ source)

theorem imports_page {m : Module} (single : m.imports = ["./page"]) :
    imports ⟨d, aliases, index⟩ ⟨"/page.ts"⟩ m = [⟨"./page", ⟨"/page.ts"⟩, none⟩] := by
  rw [imports, single, List.filterMap_cons, resolve?_page holds, List.filterMap_nil]
  rfl

/-- From the held page only the page is reached. -/
theorem eq_page_of_reaches {p : Path} (reached : Reaches ⟨d, aliases, index⟩ ⟨"/page.ts"⟩ p) :
    p = ⟨"/page.ts"⟩ := by
  induction reached with
  | entry => rfl
  | imported _ read mem resolved ih =>
    obtain ⟨m, read', single, -⟩ := holds.module
    rw [ih] at read resolved
    cases read.symm.trans read'
    rw [single, List.mem_singleton] at mem
    rw [mem, resolve?_page holds] at resolved
    cases resolved
    rfl

/-- The tree of the held page is built. -/
theorem exists_build_page : ∃ t, (build ⟨d, aliases, index⟩ .sample).alone = .ok t := by
  obtain ⟨m, read, single, -⟩ := holds.module
  let s : Scope := ⟨d, aliases, index⟩
  let root : Component := ⟨"/", ⟨"/page.ts"⟩, none⟩
  have begins : s.build .sample = s.grow (.ofRoot root) := by
    rw [build, show s.disk.canonical Route.sample.entry = ⟨"/page.ts"⟩ from holds.canonical]
    rfl
  have next : (Growth.ofRoot root).buds = [⟨0, ⟨"/page.ts"⟩⟩] := rfl
  have closes : (Tree.ofRoot root).closes 0 ⟨"./page", ⟨"/page.ts"⟩, none⟩ = true := by
    decide
  have done : ((Growth.ofRoot root).step s next m).buds = [] := by
    have buds := (Growth.sprouted s next m).buds
    rw [imports_page holds aliases index single] at buds
    rw [show ((Growth.ofRoot root).step s next m).buds = _ ++ [] from rfl, List.append_nil, buds]
    simp only [List.zipIdx_cons, List.zipIdx_nil, List.filterMap_cons, List.filterMap_nil]
    exact if_pos closes ▸ rfl
  refine ⟨((Growth.ofRoot root).step s next m).tree, ?_⟩
  rw [begins, alone_grow_cons s next, read]
  exact alone_grow_nil s done

end Page

end Scope

/-- A disk that holds the page and nothing else. -/
def Disk.sample : Disk := ⟨.dir [("page.ts", .file "import './page'".toUTF8)], []⟩

theorem Disk.wellFormed_sample : sample.WellFormed := ⟨rfl, by decide⟩

theorem Disk.holdsPage_sample : sample.HoldsPage where
  wellFormed := wellFormed_sample
  there := by simp only [sample, Node.at?, Node.child?, List.lookup_cons_self]

theorem Scope.wellFormed_sample : WellFormed ⟨.sample, ⟨[]⟩, .empty⟩ :=
  ⟨Disk.wellFormed_sample, fun _ mem => (nomatch mem)⟩

/-! ## A project with two routes -/

/-- A disk with two routes that share a file. The page of the first imports itself as well, through a link to
the directory that holds it, and the page of the other a file that is no module. -/
def Disk.site : Disk := ⟨.dir [
  ("package.json", .file "\x7b\"dependencies\":\x7b\"next\":1\x7d\x7d".toUTF8),
  ("app", .dir [
    ("page.ts", .file "import './menu.ts'; import './again/page.ts'".toUTF8),
    ("menu.ts", .file "'use client'".toUTF8),
    ("again", .link "."),
    ("broken", .dir [
      ("page.ts", .file "import '../menu.ts'; import './gone.ts'".toUTF8),
      ("gone.ts", .file "import".toUTF8)])])], []⟩

/-- The route of the first page. -/
def Route.front : Route := ⟨"/", ⟨"/app/page.ts"⟩⟩

/-- The route of the other page. -/
def Route.broken : Route := ⟨"/broken/", ⟨"/app/broken/page.ts"⟩⟩

namespace Disk

/-- The site is well formed. -/
theorem wellFormed_site : site.WellFormed := ⟨rfl, by decide⟩

/-- The entries of the routes are named by their places. -/
theorem canonical_site : site.canonical Route.front.entry = ⟨"/app/page.ts"⟩ ∧
    site.canonical Route.broken.entry = ⟨"/app/broken/page.ts"⟩ := by
  have front : site.locate true (Place.toPath ["app", "page.ts"]) = .ok ["app", "page.ts"] :=
    locate_toPath wellFormed_site rfl fun _ => Node.noConfusion
  have broken : site.locate true (Place.toPath ["app", "broken", "page.ts"]) = .ok ["app", "broken", "page.ts"] :=
    locate_toPath wellFormed_site rfl fun _ => Node.noConfusion
  exact ⟨canonical_of_locate front, canonical_of_locate broken⟩

/-- What the scripts of the site say: the last of them is no module. -/
theorem scripts_site :
    let said := fun (place : Place) (text : String) =>
      (Module.parse? (.ofPath place.toPath) text).map fun m => (m.imports, m.isClient)
    said ["app", "page.ts"] "import './menu.ts'; import './again/page.ts'" =
        some (["./menu.ts", "./again/page.ts"], false) ∧
      said ["app", "menu.ts"] "'use client'" = some ([], true) ∧
      said ["app", "broken", "page.ts"] "import '../menu.ts'; import './gone.ts'" =
        some (["../menu.ts", "./gone.ts"], false) ∧
      said ["app", "broken", "gone.ts"] "import" = none := by
  decide +kernel

/-- The first page imports the shared file and, through the link, itself. -/
theorem module_page_site : ∃ m, site.module ⟨"/app/page.ts"⟩ = .ok m ∧
    m.imports = ["./menu.ts", "./again/page.ts"] ∧ m.isClient = false :=
  exists_module_of_at? wellFormed_site ["app", "page.ts"] rfl scripts_site.1

/-- The shared file has the directive of the client. -/
theorem module_menu_site : ∃ m, site.module ⟨"/app/menu.ts"⟩ = .ok m ∧ m.imports = [] ∧ m.isClient = true :=
  exists_module_of_at? wellFormed_site ["app", "menu.ts"] rfl scripts_site.2.1

/-- The other page imports the shared file and the one that is no module. -/
theorem module_brokenPage_site : ∃ m, site.module ⟨"/app/broken/page.ts"⟩ = .ok m ∧
    m.imports = ["../menu.ts", "./gone.ts"] ∧ m.isClient = false :=
  exists_module_of_at? wellFormed_site ["app", "broken", "page.ts"] rfl scripts_site.2.2.1

/-- The file of the broken route that is no script fails by its mistake. -/
theorem module_gone_site : site.module ⟨"/app/broken/gone.ts"⟩ =
    .error (.malformed ⟨"/app/broken/gone.ts"⟩ [Module.mistake]) :=
  module_of_at?_of_refused wellFormed_site ["app", "broken", "gone.ts"] rfl
    (Option.map_eq_none_iff.mp scripts_site.2.2.2)

/-- The link leads back to the directory that holds it. -/
theorem locate_again_site : site.locate true ⟨"/app/again/page.ts"⟩ = .ok ["app", "page.ts"] := by
  have segments : (Path.mk "/app/again/page.ts").segments = ["app", "again", "page.ts"] := by decide
  have target : (Path.mk ".").segments ++ ["page.ts"] = [".", "page.ts"] := by decide
  have relative : (Path.mk ".").isAbsolute = false := by decide
  have start : site.start ⟨"/app/again/page.ts"⟩ = [] := if_pos (by decide)
  refine locate_iff.mpr ⟨by decide, by decide, 39, ?_⟩
  rw [segments, start]
  refine .into rfl (by decide) (by decide) (by decide) rfl (fun _ => Node.noConfusion) ?_
  refine .link rfl (by decide) (by decide) (by decide) rfl (by decide) ?_
  rw [target, relative]
  refine .idle rfl (by decide) ?_
  exact .into rfl (by decide) (by decide) (by decide) rfl (fun _ => Node.noConfusion) .arrived

end Disk

namespace Scope

section Site

variable (aliases : AliasMap) (index : FileIndex)

/-- What a relative import on this disk refers to, whatever aliases there are and whatever is indexed. -/
theorem resolve?_site {importer : Path} {specifier : String} (place : Place) {content : ByteArray}
    (relative : isRelative specifier = true)
    (target : ((importer.parent?.getD ⟨"."⟩).join ⟨specifier⟩).clean = place.toPath)
    (isSource : place.toPath.isSource = true) (there : Disk.site.root.at? place = some (.file content)) :
    resolve? ⟨.site, aliases, index⟩ importer specifier = some ⟨place.toPath, .relative⟩ :=
  resolve?_of_locate relative target isSource
    (Disk.locate_toPath Disk.wellFormed_site there fun _ => Node.noConfusion) there

/-- Both imports of the first page are files of the project, and the link gives the page under its own name. -/
theorem imports_page_site {m : Module} (listed : m.imports = ["./menu.ts", "./again/page.ts"]) :
    imports ⟨.site, aliases, index⟩ ⟨"/app/page.ts"⟩ m =
      [⟨"./menu.ts", ⟨"/app/menu.ts"⟩, none⟩, ⟨"./again/page.ts", ⟨"/app/page.ts"⟩, none⟩] := by
  have menu : resolve? ⟨.site, aliases, index⟩ ⟨"/app/page.ts"⟩ "./menu.ts" = some ⟨⟨"/app/menu.ts"⟩, .relative⟩ :=
    resolve?_site aliases index ["app", "menu.ts"] (by decide) (by decide)
      (by decide) rfl
  have again : resolve? ⟨.site, aliases, index⟩ ⟨"/app/page.ts"⟩ "./again/page.ts" =
      some ⟨⟨"/app/page.ts"⟩, .relative⟩ := by
    have target : (((Path.mk "/app/page.ts").parent?.getD ⟨"."⟩).join ⟨"./again/page.ts"⟩).clean =
        ⟨"/app/again/page.ts"⟩ := by decide
    have there : Disk.site.root.at? ["app", "page.ts"] = some (.file _) := rfl
    exact resolve?_of_locate (s := ⟨.site, aliases, index⟩) (by decide) target (by decide)
      Disk.locate_again_site there
  rw [imports, listed]
  simp only [List.filterMap_cons, List.filterMap_nil, menu, again, Option.map_some]

/-- Both imports of the other page are files of the project. -/
theorem imports_brokenPage_site {m : Module} (listed : m.imports = ["../menu.ts", "./gone.ts"]) :
    imports ⟨.site, aliases, index⟩ ⟨"/app/broken/page.ts"⟩ m =
      [⟨"../menu.ts", ⟨"/app/menu.ts"⟩, none⟩, ⟨"./gone.ts", ⟨"/app/broken/gone.ts"⟩, none⟩] := by
  have menu : resolve? ⟨.site, aliases, index⟩ ⟨"/app/broken/page.ts"⟩ "../menu.ts" =
      some ⟨⟨"/app/menu.ts"⟩, .relative⟩ :=
    resolve?_site aliases index ["app", "menu.ts"] (by decide) (by decide)
      (by decide) rfl
  have gone : resolve? ⟨.site, aliases, index⟩ ⟨"/app/broken/page.ts"⟩ "./gone.ts" =
      some ⟨⟨"/app/broken/gone.ts"⟩, .relative⟩ :=
    resolve?_site aliases index ["app", "broken", "gone.ts"] (by decide) (by decide)
      (by decide) rfl
  rw [imports, listed]
  simp only [List.filterMap_cons, List.filterMap_nil, menu, gone, Option.map_some]

/-- With names from an index of this disk, imports refer to files by canonical names. -/
theorem wellFormed_site : WellFormed ⟨.site, aliases, .ofDisk .site ⟨"/"⟩⟩ :=
  wellFormed_ofDisk Disk.wellFormed_site Disk.wellFormed_site aliases ⟨"/"⟩

end Site

end Scope

end RouteTrees
