import Mathlib.Data.List.Induction
import RouteTrees.Proofs.Project.Sources
import RouteTrees.Proofs.Project.Suffix
import RouteTrees.Proofs.Text.Bytes

/-!
# The routes of a directory

Each directory below the routing root that is entered and holds a page or a layout has one route, and routes
have one directory each: the route spells the way to it. Of the files that could answer for it the best does.
The set of routes is made by putting in one file after the other, and keeping the better of two for one route;
what comes of this is known by the files alone, so the order in which they are met does not count.
-/

namespace RouteTrees

namespace Convention

/-- The names of the files that define a route, in order of priority. -/
def entryFiles : List String := entryStems.flatMap fun stem => entryExtensions.map fun e => stem ++ "." ++ e

end Convention

namespace Route

open Convention

/-! ## Ranks -/

/-- How good a name is for a file that defines a route. -/
def rankOfName (name : String) : Rank :=
  ⟨entryStems.idxOf (Path.splitName name).1, entryExtensions.idxOf ((Path.splitName name).2.getD "")⟩

theorem rank_eq {p : Path} {name : String} (called : p.fileName? = some name) : rank p = rankOfName name := by
  rw [rank, Path.stem?, Path.extension?, called]
  rfl

/-- A file is an entry if its name is one of an entry. -/
theorem isEntry_iff {p : Path} {name : String} (called : p.fileName? = some name) :
    isEntry p = true ↔ name ∈ entryFiles := by
  rw [isEntry, rank_eq called, Bool.and_eq_true, decide_eq_true_iff, decide_eq_true_iff]
  constructor
  · rintro ⟨stem, extension⟩
    cases parts : Path.splitName name with
    | mk s e =>
      rw [rankOfName, parts] at stem extension
      have stem := List.idxOf_lt_length_iff.mp stem
      have extension := List.idxOf_lt_length_iff.mp extension
      cases e with
      | none =>
        have bare : "" ∉ entryExtensions := by decide
        exact absurd extension bare
      | some e =>
        obtain ⟨-, -, rfl⟩ := Path.eq_of_splitName parts
        exact List.mem_flatMap.mpr ⟨s, stem, List.mem_map_of_mem extension⟩
  · have stems : ∀ s ∈ entryStems, s ≠ "" := by decide
    have dotless : ∀ e ∈ entryExtensions, '.' ∉ e.toList := by decide
    intro listed
    obtain ⟨s, stem, extended⟩ := List.mem_flatMap.mp listed
    obtain ⟨e, extension, rfl⟩ := List.mem_map.mp extended
    rw [rankOfName, Path.splitName_dot (stems s stem) (dotless e extension)]
    exact ⟨List.idxOf_lt_length_iff.mpr stem, List.idxOf_lt_length_iff.mpr extension⟩

/-- A name that is not behind another in rank is not behind it in priority. -/
theorem eq_of_atMost : ∀ f ∈ entryFiles, ∀ g ∈ entryFiles, (rankOfName f).atMost (rankOfName g) = true →
    g = f ∨ [g, f].Sublist entryFiles → g = f := by
  decide

namespace Rank

theorem atMost_iff {r s : Rank} : r.atMost s = true ↔
    r.stem < s.stem ∨ r.stem = s.stem ∧ r.extension ≤ s.extension := by
  simp [atMost]

theorem atMost_refl (r : Rank) : r.atMost r = true := by
  simp [atMost_iff]

/-- What is not behind a rank that is not behind another is not behind that other. -/
theorem atMost_trans {r s t : Rank} (first : r.atMost s = true) (second : s.atMost t = true) :
    r.atMost t = true := by
  rw [atMost_iff] at *
  omega

theorem atMost_of_not {r s : Rank} (behind : ¬r.atMost s = true) : s.atMost r = true := by
  rw [atMost_iff] at *
  omega

end Rank

/-! ## The route of a file -/

/-- The directory of a file that is reached by names is that of the names before. -/
theorem ofEntry_ofNames {names : Place} {name : String} (named : Place.Named (names ++ [name])) :
    ofEntry (Path.ofNames (names ++ [name])) = names.slashed := by
  have before : names.Named := fun part mem => named part (List.mem_append_left _ mem)
  simp only [ofEntry, Path.parent?_ofNames named, Path.names_ofNames before, Place.slashed]

end Route

namespace RouteSet

variable {items routes : List Route}

/-! ## Putting in one route after the other -/

/-- In an ordered list, a route is listed once. -/
theorem Ordered.eq_of_route {r q : Route} (ordered : Ordered routes) (mem : r ∈ routes) (mem' : q ∈ routes)
    (same : r.route = q.route) : r = q := by
  have found := ordered.find?_eq mem
  rw [same, ordered.find?_eq mem'] at found
  exact (Option.some.inj found).symm

/-- Whether a list has one entry for each route of some, one of those that are given for the route and none
of them better. -/
structure Keeps (items routes : List Route) : Prop where
  ordered : Ordered routes
  among : ∀ r ∈ routes, r ∈ items
  covers : ∀ q ∈ items, ∃ r ∈ routes, r.route = q.route ∧
    (Route.rank r.entry).atMost (Route.rank q.entry) = true

/-- A route that is put in has an entry that is as good as the one put in. -/
theorem exists_mem_insertInto (route : String) (entry : Path) (routes : List Route) :
    ∃ r ∈ insertInto route entry routes, r.route = route ∧
      (Route.rank r.entry).atMost (Route.rank entry) = true := by
  induction routes with
  | nil => exact ⟨_, List.mem_cons_self, rfl, Route.Rank.atMost_refl _⟩
  | cons first rest ih =>
    rw [insertInto]
    split
    · next same =>
      split
      · next good => exact ⟨first, List.mem_cons_self, same, good⟩
      · exact ⟨_, List.mem_cons_self, rfl, Route.Rank.atMost_refl _⟩
    · split
      · obtain ⟨r, mem, kept⟩ := ih
        exact ⟨r, List.mem_cons_of_mem _ mem, kept⟩
      · exact ⟨_, List.mem_cons_self, rfl, Route.Rank.atMost_refl _⟩

/-- A route that is there already keeps its entry, or gets a better one. -/
theorem exists_mem_insertInto_of_mem (route : String) (entry : Path) {q : Route} (mem : q ∈ routes) :
    ∃ r ∈ insertInto route entry routes, r.route = q.route ∧
      (Route.rank r.entry).atMost (Route.rank q.entry) = true := by
  have stays {l : List Route} (kept : q ∈ l) : ∃ r ∈ l, r.route = q.route ∧
      (Route.rank r.entry).atMost (Route.rank q.entry) = true := ⟨q, kept, rfl, Route.Rank.atMost_refl _⟩
  induction routes with
  | nil => cases mem
  | cons first rest ih =>
    rw [insertInto]
    split
    · next same =>
      rcases List.mem_cons.mp mem with rfl | old
      · split
        · exact stays List.mem_cons_self
        · next better => exact ⟨_, List.mem_cons_self, same.symm, Route.Rank.atMost_of_not better⟩
      · exact stays (List.mem_cons_of_mem _ old)
    · split
      · rcases List.mem_cons.mp mem with rfl | old
        · exact stays List.mem_cons_self
        · obtain ⟨r, mem, kept⟩ := ih old
          exact ⟨r, List.mem_cons_of_mem _ mem, kept⟩
      · exact stays (List.mem_cons_of_mem _ mem)

/-- One more insertion keeps the best entry of each route. -/
theorem Keeps.insertInto (keeps : Keeps items routes) (new : Route) :
    Keeps (items ++ [new]) (insertInto new.route new.entry routes) where
  ordered := keeps.ordered.insertInto new.route new.entry
  among r mem := by
    rcases mem_of_mem_insertInto mem with old | rfl
    · exact List.mem_append_left _ (keeps.among r old)
    · exact List.mem_append_right _ (List.mem_singleton_self _)
  covers q mem := by
    rcases List.mem_append.mp mem with old | last
    · obtain ⟨r, kept, same, good⟩ := keeps.covers q old
      obtain ⟨b, kept', same', better⟩ := exists_mem_insertInto_of_mem new.route new.entry kept
      exact ⟨b, kept', same'.trans same, Route.Rank.atMost_trans better good⟩
    · rw [List.mem_singleton.mp last]
      exact exists_mem_insertInto new.route new.entry routes

/-- So it is with all that are put in. -/
theorem keeps_foldl (items : List Route) :
    Keeps items (items.foldl (fun s r => s.insert r.route r.entry) empty).routes := by
  induction items using List.reverseRecOn with
  | nil => exact ⟨List.Pairwise.nil, (fun _ none => nomatch none), (fun _ none => nomatch none)⟩
  | append_singleton items new ih =>
    rw [List.foldl_concat]
    exact ih.insertInto new

/-! ## What is put in -/

/-- The route that something defines that was met on a walk, if it is an entry file. -/
def defined? (d : Disk) (routingRoot : Path) (e : Disk.Entry) : Option Route :=
  if e.kind = .file && Route.isEntry e.path then
    (e.path.stripBase? routingRoot).map fun relative => ⟨Route.ofEntry relative, d.canonical e.path⟩
  else none

/-- A walk inserts the routes that its entries define. -/
theorem foldl_insertEntry (d : Disk) (routingRoot : Path) (entries : List Disk.Entry) (s : RouteSet) :
    entries.foldl (insertEntry d routingRoot) s =
      (entries.filterMap (defined? d routingRoot)).foldl (fun s r => s.insert r.route r.entry) s := by
  rw [List.foldl_filterMap]
  congr 1
  funext s e
  rw [insertEntry, defined?]
  split
  · cases e.path.stripBase? routingRoot <;> rfl
  · rfl

end RouteSet

namespace Disk

open Convention

variable {d : Disk} {routingRoot : Path} {start : Place}

/-- Whether a route is that of an entry file below a place, in a directory that is entered. -/
def DefinesBelow (d : Disk) (start : Place) (r : Route) : Prop :=
  ∃ (names : Place) (f : String), names.Entered ∧ f ∈ entryFiles ∧
    d.hasFile (start ++ names ++ [f]) = true ∧ r = ⟨names.slashed, (start ++ names ++ [f] : Place).toPath⟩

/-- The name of the file that answers for a directory: of those it holds the one with priority. -/
def bestFile? (d : Disk) (directory : Place) : Option String :=
  entryFiles.find? fun f => d.hasFile (directory ++ [f])

/-- The best file is an entry file of the directory. -/
theorem spec_of_bestFile? {directory : Place} {f : String} (best : d.bestFile? directory = some f) :
    f ∈ entryFiles ∧ d.hasFile (directory ++ [f]) = true :=
  ⟨List.mem_of_find?_eq_some best, List.find?_some (p := fun f => d.hasFile (directory ++ [f])) best⟩

/-- An entry file that is no worse than the best in its directory is the best. -/
theorem eq_of_bestFile? {directory : Place} {f g : String} (best : d.bestFile? directory = some f)
    (listed : g ∈ entryFiles) (isFile : d.hasFile (directory ++ [g]) = true)
    (good : (Route.rankOfName g).atMost (Route.rankOfName f) = true) : g = f := by
  obtain ⟨b, listed', -, found, before⟩ :=
    exists_first (fun f => d.hasFile (directory ++ [f])) listed isFile
  cases found.symm.trans best
  exact (Route.eq_of_atMost g listed f listed' good before).symm

/-- Different directories below a place are spelled differently by their routes. -/
theorem slashed_inj_below (wellFormed : d.WellFormed) {names names' : Place}
    (there : d.hasDir (start ++ names) = true) (there' : d.hasDir (start ++ names') = true)
    (same : names.slashed = names'.slashed) : names = names' := by
  have free {names : Place} (there : d.hasDir (start ++ names) = true) :
      ∀ name ∈ names, '/' ∉ name.toList := by
    intro name mem
    obtain ⟨es, holds⟩ := hasDir_iff.mp there
    exact (Place.named_of_at? wellFormed holds name (List.mem_append_right _ mem)).noSlash
  exact Place.slashed_inj (free there) (free there') same

section Enumerating

variable (wellFormed : d.WellFormed) (located : d.locate true routingRoot = .ok start)
  (isDir : d.hasDir start = true) (notDash : routingRoot.components ≠ [.name "-"])
include wellFormed located isDir

/-- The routes that are defined by what a walk meets are those of the entry files below its start. -/
theorem mem_defined_iff {entries : List Entry} (walked : d.Walked routingRoot start entries) {r : Route} :
    r ∈ entries.filterMap (RouteSet.defined? d routingRoot) ↔ d.DefinesBelow start r := by
  have ne := (locate_iff.mp located).1
  have defines {names : Place} {f : String} (isFile : d.hasFile (start ++ names ++ [f]) = true) :
      RouteSet.defined? d routingRoot ⟨routingRoot.descend (names ++ [f]), f, .file, names.length + 1⟩ =
        if f ∈ entryFiles then some ⟨names.slashed, (start ++ names ++ [f] : Place).toPath⟩ else none := by
    have named := named_below wellFormed isFile
    have isEntry := Route.isEntry_iff (fileName?_below wellFormed located isFile)
    rw [RouteSet.defined?, Path.stripBase?_descend ne named (by simp)]
    simp only [decide_true, Bool.true_and, isEntry, Option.map_some, Route.ofEntry_ofNames named,
      canonical_below wellFormed located isDir isFile]
  rw [List.mem_filterMap]
  constructor
  · rintro ⟨e, mem, some⟩
    have isFile : e.kind = .file := by
      rw [RouteSet.defined?] at some
      split at some
      · next entry => exact of_decide_eq_true (Bool.and_eq_true_iff.mp entry).1
      · cases some
    obtain ⟨names, f, there, entered, rfl⟩ := walked.file_met_iff.mp ⟨mem, isFile⟩
    rw [defines there] at some
    split at some
    · next listed =>
      cases some
      exact ⟨names, f, entered, listed, there, rfl⟩
    · cases some
  · rintro ⟨names, f, entered, listed, there, rfl⟩
    obtain ⟨mem, -⟩ := walked.file_met_iff.mpr ⟨names, f, there, entered, rfl⟩
    exact ⟨_, mem, by rw [defines there, if_pos listed]⟩

include notDash

/-- The routes of a directory can be found, and keep the best of those that are defined below. -/
theorem exists_keeps : ∃ routes items, RouteSet.ofDisk d routingRoot = .ok routes ∧
    RouteSet.Keeps items routes.routes ∧ ∀ r, r ∈ items ↔ d.DefinesBelow start r := by
  obtain ⟨entries, walk, walked⟩ := exists_walked wellFormed notDash located isDir
  refine ⟨_, entries.filterMap (RouteSet.defined? d routingRoot), ?_, RouteSet.keeps_foldl _,
    fun r => mem_defined_iff wellFormed located isDir walked⟩
  rw [RouteSet.ofDisk, walk, ← RouteSet.foldl_insertEntry]
  rfl

/-- The routes of a directory are those of the directories that are entered and hold an entry file, each with
the best that its directory holds. -/
theorem mem_routes_iff {routes : RouteSet} (found : RouteSet.ofDisk d routingRoot = .ok routes) {r : Route} :
    r ∈ routes.routes ↔ ∃ (names : Place) (f : String), names.Entered ∧
      d.bestFile? (start ++ names) = some f ∧
        r = ⟨names.slashed, (start ++ names ++ [f] : Place).toPath⟩ := by
  obtain ⟨routes', items, found', keeps, put⟩ := exists_keeps wellFormed located isDir notDash
  cases found.symm.trans found'
  have rank {names : Place} {f : String} (isFile : d.hasFile (start ++ names ++ [f]) = true) :
      Route.rank (start ++ names ++ [f] : Place).toPath = Route.rankOfName f :=
    Route.rank_eq (Place.fileName?_toPath (named_of_hasFile wellFormed isFile))
  constructor
  · intro mem
    obtain ⟨names, f, entered, listed, isFile, rfl⟩ := (put r).mp (keeps.among r mem)
    obtain ⟨g, listed', isFile', best, -⟩ :=
      exists_first (fun f => d.hasFile (start ++ names ++ [f])) listed isFile
    have best : d.bestFile? (start ++ names) = some g := best
    -- the best entry file was put in too, so what is kept for the route is as good
    obtain ⟨q, mem', same, good⟩ := keeps.covers ⟨names.slashed, (start ++ names ++ [g] : Place).toPath⟩
      ((put _).mpr ⟨names, g, entered, listed', isFile', rfl⟩)
    cases keeps.ordered.eq_of_route mem' mem same
    rw [rank isFile, rank isFile'] at good
    cases eq_of_bestFile? best listed isFile good
    exact ⟨names, f, entered, best, rfl⟩
  · rintro ⟨names, f, entered, best, rfl⟩
    obtain ⟨listed, isFile⟩ := spec_of_bestFile? best
    obtain ⟨q, mem, same, good⟩ := keeps.covers ⟨names.slashed, (start ++ names ++ [f] : Place).toPath⟩
      ((put _).mpr ⟨names, f, entered, listed, isFile, rfl⟩)
    obtain ⟨names', g, entered', listed', isFile', rfl⟩ := (put q).mp (keeps.among q mem)
    cases slashed_inj_below wellFormed (hasDir_of_hasFile isFile') (hasDir_of_hasFile isFile) same
    rw [rank isFile, rank isFile'] at good
    cases eq_of_bestFile? best listed' isFile' good
    exact mem

end Enumerating

/-- Listing a disk in another order leaves the best files. -/
theorem Relisted.bestFile?_eq {d' : Disk} (same : d.Relisted d') (directory : Place) :
    d'.bestFile? directory = d.bestFile? directory := by
  simp only [bestFile?, same.hasFile_eq]

end Disk

instance : Std.Irrefl fun r q : Route => r.route < q.route where
  irrefl r := String.lt_irrefl r.route

instance : Std.Antisymm fun r q : Route => r.route < q.route where
  antisymm _ _ less more := absurd more (String.lt_asymm less)

/-- The routes of a directory, whatever links there are and in whatever order directories list what they hold,
if it is not spelled as a dash, which stands for the standard input. They are those of the directories at or below it that are reached by names alone, none of them that of a
directory that is left out, and hold an entry file. The route of a directory is spelled by these names, so no
other directory has it, and its entry is the place of the best entry file there. The routes are in strict order
of their bytes. -/
theorem RouteSet.routes_of_directories {d : Disk} (wellFormed : d.WellFormed) {routingRoot : Path}
    {start : Place} (located : d.locate true routingRoot = .ok start) (isDir : d.hasDir start = true)
    (notDash : routingRoot.components ≠ [.name "-"]) :
    ∃ routes, RouteSet.ofDisk d routingRoot = .ok routes ∧
      (∀ r, r ∈ routes.routes ↔ ∃ (names : Place) (f : String),
        (∀ part ∈ names, part ∉ Convention.ignoredDirectories) ∧ d.bestFile? (start ++ names) = some f ∧
          r = ⟨names.slashed, (start ++ names ++ [f] : Place).toPath⟩) ∧
      (∀ names names' : Place, d.hasDir (start ++ names) = true → d.hasDir (start ++ names') = true →
        names.slashed = names'.slashed → names = names') ∧
      (routes.paths.Pairwise fun s t => Text.bytes s < Text.bytes t) ∧
      ∀ d', d'.WellFormed → d.Relisted d' → RouteSet.ofDisk d' routingRoot = .ok routes := by
  obtain ⟨routes, items, found, keeps, -⟩ := Disk.exists_keeps wellFormed located isDir notDash
  refine ⟨routes, found, fun r => Disk.mem_routes_iff wellFormed located isDir notDash found,
    fun names names' => Disk.slashed_inj_below wellFormed, ?_, fun d' wellFormed' same => ?_⟩
  · rw [paths, List.pairwise_map]
    exact keeps.ordered.imp Text.bytes_lt_iff.mpr
  · have located' := (same.locate_eq true routingRoot).trans located
    have isDir' := (same.hasDir_eq start).trans isDir
    obtain ⟨routes', items', found', keeps', -⟩ := Disk.exists_keeps wellFormed' located' isDir' notDash
    have equal : routes'.routes = routes.routes := by
      apply List.Pairwise.eq_of_mem_iff keeps'.ordered keeps.ordered
      intro r
      rw [Disk.mem_routes_iff wellFormed' located' isDir' notDash found', Disk.mem_routes_iff wellFormed located isDir notDash found]
      simp only [same.bestFile?_eq]
    rw [found']
    exact congrArg (fun routes => Except.ok (RouteSet.mk routes)) equal

/-- A disk with three entry files, a directory with one and a link to it, and one in a directory that is left
out. -/
def Disk.routed : Disk := ⟨.dir [("layout.tsx", .file .empty), ("page.js", .file .empty),
  ("page.tsx", .file .empty), ("blog", .dir [("layout.js", .file .empty)]), ("old", .link "blog"),
  ("node_modules", .dir [("page.tsx", .file .empty)])], []⟩

/-- The routed disk is well formed. -/
theorem Disk.wellFormed_routed : routed.WellFormed := ⟨rfl, by decide⟩

/-- On the routed disk each directory has the route of its best file, and an ignored one has none. -/
theorem RouteSet.routes_of_directories_routed : ∃ routes, ofDisk .routed ⟨"/"⟩ = .ok routes ∧
    ⟨"/", ⟨"/page.tsx"⟩⟩ ∈ routes.routes ∧ ⟨"/blog/", ⟨"/blog/layout.js"⟩⟩ ∈ routes.routes ∧
      (∀ entry, ⟨"/node_modules/", entry⟩ ∉ routes.routes) ∧
        ofDisk ⟨.dir Disk.routed.root.entries.reverse, []⟩ ⟨"/"⟩ = .ok routes := by
  have isDir : Disk.routed.hasDir [] = true := rfl
  have located : Disk.routed.locate true ⟨"/"⟩ = .ok [] := by
    obtain ⟨es, there⟩ := Disk.hasDir_iff.mp isDir
    exact Disk.locate_toPath Disk.wellFormed_routed there fun _ => Node.noConfusion
  obtain ⟨routes, found, members, apart, -, listing⟩ :=
    routes_of_directories Disk.wellFormed_routed located isDir (by decide)
  refine ⟨routes, found, ?_, ?_, ?_, ?_⟩
  · exact (members _).mpr ⟨[], "page.tsx", by decide, by decide, by decide⟩
  · exact (members _).mpr ⟨["blog"], "layout.js", by decide, by decide, by decide⟩
  · intro entry mem
    obtain ⟨names, f, entered, best, spelled⟩ := (members _).mp mem
    have there := Disk.hasDir_of_hasFile (Disk.spec_of_bestFile? best).2
    have route : names.slashed = Place.slashed ["node_modules"] := (congrArg Route.route spelled).symm
    cases apart names ["node_modules"] there rfl route
    exact entered "node_modules" (by decide) (by decide)
  · apply listing _ ⟨rfl, by decide⟩
    exact Disk.relisted_of_perm (List.reverse_perm _) (by decide) []

end RouteTrees
