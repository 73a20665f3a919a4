import RouteTrees.Proofs.Tree.Complete

/-!
# Which files a build reads, and in which order

A build reads a file before what the file imports, and what an import leads to before the next import. The
list of these visits says when a build fails: just if a file in it gives no module, and then with the
error of the first such file. Although nothing is visited behind a file that is met again, every file that
can be reached is visited: what follows on a file that is met again follows on it where it was met first.
-/

namespace RouteTrees

open Script (Module)

/-- Why a file gives no module, if so. -/
def Disk.failure? (d : Disk) (p : Path) : Option ModuleError :=
  match d.module p with
  | .ok _ => none
  | .error e => some e

/-- A file does not fail if and only if it can be read. -/
theorem Disk.failure?_eq_none_iff {d : Disk} {p : Path} :
    d.failure? p = none ↔ ∃ m, d.module p = .ok m := by
  rw [failure?]
  cases d.module p with
  | ok m => exact ⟨fun _ => ⟨m, rfl⟩, fun _ => rfl⟩
  | error e => exact ⟨fun none => (nomatch none), fun ⟨_, read⟩ => (nomatch read)⟩

/-- A file fails with what reading it gives. -/
theorem Disk.failure?_eq_some_iff {d : Disk} {p : Path} {e : ModuleError} :
    d.failure? p = some e ↔ d.module p = .error e := by
  rw [failure?]
  cases d.module p with
  | ok m => exact ⟨fun some => (nomatch some), fun failed => (nomatch failed)⟩
  | error e' => rw [Option.some.injEq, Except.error.injEq]

namespace Scope

/-- The files that are visited from a file on, with those that are on the way to it: none if the file is
met again, and none behind a file that gives no module. -/
def visits (s : Scope) (chain : List Path) (path : Path) : List Path :=
  if chain.any (·.same path) then []
  else
    path :: match s.disk.module path with
      | .error _ => []
      | .ok m => (s.imports path m).attach.flatMap fun c => s.visits (path :: chain) c.1.path
termination_by s.room chain path
decreasing_by
  next new => exact room_cons_lt (path_mem_files_of_mem_imports c.2) new

variable {s : Scope} {chain : List Path} {path entry file : Path} {m : Module}

/-- What has been met on the way is not visited again. -/
theorem visits_of_met (met : chain.any (·.same path) = true) : s.visits chain path = [] := by
  rw [visits, if_pos met]

/-- A file that fails is visited, and nothing below it. -/
theorem visits_of_error (new : chain.any (·.same path) = false) {e : ModuleError}
    (failed : s.disk.module path = .error e) : s.visits chain path = [path] := by
  rw [visits, if_neg (ne_true_of_eq_false new), failed]

/-- A file that can be read is visited before what it imports. -/
theorem visits_of_ok (new : chain.any (·.same path) = false) (read : s.disk.module path = .ok m) :
    s.visits chain path =
      path :: (s.imports path m).flatMap fun c => s.visits (path :: chain) c.path := by
  rw [visits, if_neg (ne_true_of_eq_false new), read]
  simp only
  rw [List.flatMap_subtype (g := fun c => s.visits (path :: chain) c.path) fun _ _ => rfl,
    List.unattach_attach]

/-- What is visited from a file on is the file, if it is new, and what is visited from its imports on. -/
theorem mem_visits_iff : file ∈ s.visits chain path ↔ chain.any (·.same path) = false ∧
    (file = path ∨ ∃ m c, s.disk.module path = .ok m ∧ c ∈ s.imports path m ∧
      file ∈ s.visits (path :: chain) c.path) := by
  cases met : chain.any (·.same path) with
  | true => simp only [visits_of_met met, List.not_mem_nil, reduceCtorEq, false_and]
  | false =>
    rw [eq_self, true_and]
    cases read : s.disk.module path with
    | error e =>
      rw [visits_of_error met read, List.mem_singleton]
      exact ⟨.inl, fun either => either.resolve_right fun ⟨_, _, ok, _⟩ => (nomatch ok)⟩
    | ok m =>
      rw [visits_of_ok met read, List.mem_cons, List.mem_flatMap]
      refine or_congr_right ⟨fun ⟨c, rest⟩ => ⟨m, c, rfl, rest⟩, ?_⟩
      rintro ⟨m', c, ok, rest⟩
      cases ok
      exact ⟨c, rest⟩

/-! ## Visits and reaching -/

/-- What is visited is reached. -/
theorem reaches_of_mem_visits (reached : s.Reaches entry path) (mem : file ∈ s.visits chain path) :
    s.Reaches entry file := by
  induction chain, path using visits.induct s with
  | case1 chain path met =>
    rw [visits_of_met met] at mem
    cases mem
  | case2 chain path _ ih =>
    obtain ⟨-, rfl | ⟨m, c, read, imported, later⟩⟩ := mem_visits_iff.mp mem
    · exact reached
    · exact ih m ⟨c, imported⟩ (reached.of_mem_imports read imported) later

/-- What is imported by a file that is visited is visited too, or it was on the way from the first. -/
theorem mem_visits_of_imported (distinct : Path.Distinct (s.Reaches entry))
    (reached : s.Reaches entry path) (mem : file ∈ s.visits chain path)
    (read : s.disk.module file = .ok m) {c : Component} (imported : c ∈ s.imports file m) :
    c.path ∈ s.visits chain path ∨ chain.any (·.same c.path) = true := by
  have target := (reaches_of_mem_visits reached mem).of_mem_imports read imported
  induction chain, path using visits.induct s with
  | case1 chain path met =>
    rw [visits_of_met met] at mem
    cases mem
  | case2 chain path new ih =>
    have open_ := Bool.eq_false_iff.mpr new
    obtain ⟨-, here | ⟨m', c', read', imported', later⟩⟩ := mem_visits_iff.mp mem
    · subst here
      cases met : (file :: chain).any (·.same c.path) with
      | false =>
        have visited : c.path ∈ s.visits (file :: chain) c.path :=
          mem_visits_iff.mpr ⟨met, .inl rfl⟩
        exact .inl (mem_visits_iff.mpr ⟨open_, .inr ⟨m, c, read, imported, visited⟩⟩)
      | true =>
        -- the import is met on the way: it is the file itself, or was there before
        rw [List.any_cons, Bool.or_eq_true] at met
        refine met.imp_left fun same => ?_
        rw [← distinct file c.path reached target same]
        exact mem
    · have next := reached.of_mem_imports read' imported'
      rcases ih m' ⟨c', imported'⟩ next later with visited | met
      · exact .inl (mem_visits_iff.mpr ⟨open_, .inr ⟨m', c', read', imported', visited⟩⟩)
      · rw [List.any_cons, Bool.or_eq_true] at met
        refine met.imp_left fun same => ?_
        rw [← distinct path c.path reached target same]
        exact mem_visits_iff.mpr ⟨open_, .inl rfl⟩

/-- What is visited is what is reached, and nothing else. -/
theorem mem_visits_iff_reaches (distinct : Path.Distinct (s.Reaches entry)) :
    file ∈ s.visits [] entry ↔ s.Reaches entry file := by
  refine ⟨reaches_of_mem_visits .entry, fun reached => ?_⟩
  induction reached with
  | entry => exact mem_visits_iff.mpr ⟨rfl, .inl rfl⟩
  | @imported file m specifier r reached read listed resolved ih =>
    have imported : ⟨specifier, r.path, none⟩ ∈ s.imports file m := by
      refine List.mem_filterMap.mpr ⟨specifier, listed, ?_⟩
      rw [resolved, Option.map_some]
    have visited := mem_visits_of_imported distinct .entry ih read imported
    exact visited.resolve_right Bool.noConfusion

end Scope

/-! ## What is still to be visited -/

/-- The buds of a node are to be visited as its imports are. -/
theorem Sprouted.flatMap_buds {t : Tree} {bud : Bud} {kind : Kind} {cs : List Component}
    {grown : Tree × List Bud} (sprouted : Sprouted t bud kind cs grown) (f : Path → List Path)
    (closed : ∀ c, t.closes bud.id c = true → f c.path = []) :
    (grown.2.flatMap fun b => f b.file) = cs.flatMap fun c => f c.path := by
  rw [sprouted.buds]
  clear sprouted
  generalize t.size = first
  induction cs generalizing first with
  | nil => rfl
  | cons c rest ih =>
    rw [List.zipIdx_cons, List.filterMap_cons, List.flatMap_cons]
    cases closes : t.closes bud.id c with
    | true =>
      simp only [closes, if_true]
      rw [closed c closes, List.nil_append]
      exact ih (first + 1)
    | false =>
      simp only [closes, Bool.false_eq_true, if_false, List.flatMap_cons]
      rw [ih (first + 1)]

namespace Growth

variable {s : Scope} {root : Component} {g : Growth} {bud : Bud} {rest : List Bud} {m : Module}

/-- The files that are visited until nothing is left to be grown. -/
def visits (g : Growth) (s : Scope) : List Path :=
  g.buds.flatMap fun b => s.visits (g.tree.above b.id) b.file

/-- The way to a node that is to be grown begins with its file, which is not met before. -/
theorem Sound.chain_eq (sound : g.Sound s root) (mem : bud ∈ g.buds) :
    g.tree.chain bud.id = bud.file :: g.tree.above bud.id ∧
      (g.tree.above bud.id).any (·.same bud.file) = false := by
  obtain ⟨n, found, path, -, -, cycle⟩ := sound.bare bud mem
  have marked := sound.marked bud.id n found
  rw [path, cycle] at marked
  exact ⟨path ▸ g.grounded.chain_eq_cons_above found, marked.symm⟩

/-- Growing a node leaves all that was to be visited but its file. -/
theorem Sound.visits_step (sound : g.Sound s root) (next : g.buds = bud :: rest)
    (read : s.disk.module bud.file = .ok m) :
    g.visits s = bud.file :: (g.step s next m).visits s := by
  have sprouted := Growth.sprouted s next m
  have mem : bud ∈ g.buds := next ▸ List.mem_cons_self
  obtain ⟨chain, new⟩ := sound.chain_eq mem
  have first : ((s.sprout bud m g.tree).2.flatMap fun b =>
      s.visits ((g.step s next m).tree.above b.id) b.file) =
        (s.imports bud.file m).flatMap fun c => s.visits (g.tree.chain bud.id) c.path := by
    rw [← sprouted.flatMap_buds (s.visits (g.tree.chain bud.id))
      fun c closes => Scope.visits_of_met closes]
    refine List.flatMap_congr fun b listed => ?_
    have whole := sprouted.chain_of_mem_buds g.grounded (g.inTree bud mem) listed
    rw [Tree.above, show (g.step s next m).tree = (s.sprout bud m g.tree).1 from rfl, whole,
      List.tail_cons]
  have others : (rest.flatMap fun b => s.visits ((g.step s next m).tree.above b.id) b.file) =
      rest.flatMap fun b => s.visits (g.tree.above b.id) b.file := by
    refine List.flatMap_congr fun b listed => ?_
    have lt := g.inTree b (next ▸ List.mem_cons_of_mem _ listed)
    rw [Tree.above, Tree.above, show (g.step s next m).tree = (s.sprout bud m g.tree).1 from rfl,
      g.grounded.chain_extends sprouted.extend lt]
  rw [visits, visits, next, show (g.step s next m).buds = (s.sprout bud m g.tree).2 ++ rest from rfl,
    List.flatMap_cons, List.flatMap_append, first, others, Scope.visits_of_ok new read, chain,
    List.cons_append]

end Growth

namespace Scope

variable {s : Scope} {root : Component} {g : Growth}

/-- Growing comes to a tree or fails with the first failure of a visit. -/
theorem alone_grow (sound : g.Sound s root) :
    match (g.visits s).findSome? s.disk.failure? with
    | none => ∃ t, (s.grow g).alone = .ok t
    | some e => (s.grow g).alone = .error (.module e) := by
  induction g using grow.induct s with
  | case1 g done =>
    rw [Growth.visits, done]
    exact ⟨g.tree, alone_grow_nil s done⟩
  | case2 g bud rest next ih =>
    have mem : bud ∈ g.buds := next ▸ List.mem_cons_self
    rw [alone_grow_cons s next]
    cases read : s.disk.module bud.file with
    | ok m =>
      rw [sound.visits_step next read, List.findSome?_cons, Disk.failure?_eq_none_iff.mpr ⟨m, read⟩]
      exact ih m (sound.step next read)
    | error e =>
      rw [Growth.visits, next, List.flatMap_cons, visits_of_error (sound.chain_eq mem).2 read,
        List.singleton_append, List.findSome?_cons, Disk.failure?_eq_some_iff.mpr read]

/-- A build comes to a tree or fails with the first failure of a visit. -/
theorem alone_build (s : Scope) (r : Route) :
    match (s.visits [] (s.disk.canonical r.entry)).findSome? s.disk.failure? with
    | none => ∃ t, (s.build r).alone = .ok t
    | some e => (s.build r).alone = .error (.module e) := by
  have all := alone_grow (Growth.Sound.ofRoot s r.route (s.disk.canonical r.entry))
  have visits : (Growth.ofRoot ⟨r.route, s.disk.canonical r.entry, none⟩).visits s =
      s.visits [] (s.disk.canonical r.entry) := List.append_nil _
  rw [visits] at all
  exact all

/-- What growing needs are the files that are visited before the first that gives no module. -/
theorem needs_grow (sound : g.Sound s root) :
    (s.grow g).needs s.disk = (g.visits s).takeWhile fun file => (s.disk.module file).isOk := by
  induction g using grow.induct s with
  | case1 g done =>
    rw [Growth.visits, done, grow]
    split
    · rfl
    · next next => cases done.symm.trans next
  | case2 g bud rest next ih =>
    have mem : bud ∈ g.buds := next ▸ List.mem_cons_self
    rw [grow_cons s next, Build.needs_recall_bind]
    cases read : s.disk.module bud.file with
    | ok m =>
      have goesOn : (s.disk.module bud.file).isOk = true := by
        rw [read]
        rfl
      rw [sound.visits_step next read, List.takeWhile_cons, if_pos goesOn]
      exact congrArg _ (ih m (sound.step next read))
    | error e =>
      have stops : ¬(s.disk.module bud.file).isOk = true := by
        rw [read]
        exact Bool.false_ne_true
      rw [Growth.visits, next, List.flatMap_cons, visits_of_error (sound.chain_eq mem).2 read,
        List.singleton_append, List.takeWhile_cons, if_neg stops]

/-- A build reads the files that it visits, up to the first that fails. -/
theorem needs_build (s : Scope) (r : Route) : (s.build r).needs s.disk =
    (s.visits [] (s.disk.canonical r.entry)).takeWhile fun file => (s.disk.module file).isOk := by
  have all := needs_grow (Growth.Sound.ofRoot s r.route (s.disk.canonical r.entry))
  have visits : (Growth.ofRoot ⟨r.route, s.disk.canonical r.entry, none⟩).visits s =
      s.visits [] (s.disk.canonical r.entry) := List.append_nil _
  rw [visits] at all
  exact all

/-- A build succeeds just if every file that can be reached from its entry gives a module, and otherwise
fails with the error of the first file in the order of visits that gives none. -/
theorem build_ok_iff_and_first_failure (s : Scope) (wellFormed : s.WellFormed) (r : Route)
    (c : ModuleCache) (truthful : c.Truthful s.disk (s.Reaches (s.disk.canonical r.entry))) :
    ((∃ t, ((s.build r).run c).1 = .ok t) ↔
      ∀ file, s.Reaches (s.disk.canonical r.entry) file → ∃ m, s.disk.module file = .ok m) ∧
    ∀ e, ((s.build r).run c).1 = .error e →
      ∃ before file after failure,
        s.visits [] (s.disk.canonical r.entry) = before ++ file :: after ∧
        (∀ p ∈ before, ∃ m, s.disk.module p = .ok m) ∧
        s.disk.module file = .error failure ∧ e = .module failure := by
  have distinct := wellFormed.distinct_reaches r.entry
  have outcome := s.alone_build r
  rw [run_build_eq_alone wellFormed r truthful]
  -- alone, a build ends by the first failure in the order of visits, if there is one
  cases first : (s.visits [] (s.disk.canonical r.entry)).findSome? s.disk.failure? with
  | none =>
    simp only [first] at outcome
    obtain ⟨t, built⟩ := outcome
    have readable := List.findSome?_eq_none_iff.mp first
    refine ⟨⟨fun _ file reached => ?_, fun _ => ⟨t, built⟩⟩, fun e failed => ?_⟩
    · have visited := (mem_visits_iff_reaches distinct).mpr reached
      exact Disk.failure?_eq_none_iff.mp (readable file visited)
    · cases built.symm.trans failed
  | some failure =>
    simp only [first] at outcome
    obtain ⟨before, file, after, visits, failed, readable⟩ := List.findSome?_eq_some_iff.mp first
    have unreadable := Disk.failure?_eq_some_iff.mp failed
    refine ⟨⟨fun ⟨t, built⟩ => ?_, fun all => ?_⟩, fun e failed => ?_⟩
    · cases outcome.symm.trans built
    · have visited : file ∈ s.visits [] (s.disk.canonical r.entry) :=
        visits ▸ List.mem_append_right _ List.mem_cons_self
      obtain ⟨m, read⟩ := all file ((mem_visits_iff_reaches distinct).mp visited)
      cases unreadable.symm.trans read
    · cases outcome.symm.trans failed
      exact ⟨before, file, after, failure, visits,
        fun p mem => Disk.failure?_eq_none_iff.mp (readable p mem), unreadable, rfl⟩

section Site

variable (aliases : AliasMap) (index : FileIndex)

/-- A build of the first route visits its page and the shared file. -/
theorem visits_page_site : visits ⟨.site, aliases, index⟩ [] ⟨"/app/page.ts"⟩ =
    [⟨"/app/page.ts"⟩, ⟨"/app/menu.ts"⟩] := by
  obtain ⟨page, readPage, imported, -⟩ := Disk.module_page_site
  obtain ⟨menu, readMenu, none, -⟩ := Disk.module_menu_site
  have below : visits ⟨.site, aliases, index⟩ [⟨"/app/page.ts"⟩] ⟨"/app/menu.ts"⟩ = [⟨"/app/menu.ts"⟩] := by
    rw [visits_of_ok (by decide) readMenu, imports, none]
    rfl
  have met : visits ⟨.site, aliases, index⟩ [⟨"/app/page.ts"⟩] ⟨"/app/page.ts"⟩ = [] :=
    visits_of_met (by decide)
  rw [visits_of_ok rfl readPage, imports_page_site aliases index imported]
  simp only [List.flatMap_cons, List.flatMap_nil, below, met, List.append_nil]

/-- A build of the other route comes to the file that is no module. -/
theorem visits_brokenPage_site : visits ⟨.site, aliases, index⟩ [] ⟨"/app/broken/page.ts"⟩ =
    [⟨"/app/broken/page.ts"⟩, ⟨"/app/menu.ts"⟩, ⟨"/app/broken/gone.ts"⟩] := by
  obtain ⟨page, readPage, imported, -⟩ := Disk.module_brokenPage_site
  obtain ⟨menu, readMenu, none, -⟩ := Disk.module_menu_site
  have below : visits ⟨.site, aliases, index⟩ [⟨"/app/broken/page.ts"⟩] ⟨"/app/menu.ts"⟩ =
      [⟨"/app/menu.ts"⟩] := by
    rw [visits_of_ok (by decide) readMenu, imports, none]
    rfl
  have gone : visits ⟨.site, aliases, index⟩ [⟨"/app/broken/page.ts"⟩] ⟨"/app/broken/gone.ts"⟩ =
      [⟨"/app/broken/gone.ts"⟩] := visits_of_error (by decide) Disk.module_gone_site
  rw [visits_of_ok rfl readPage, imports_brokenPage_site aliases index imported]
  simp only [List.flatMap_cons, List.flatMap_nil, below, gone, List.append_nil, List.singleton_append]

/-- So the first route has a tree. -/
theorem exists_build_front_site : ∃ t, (build ⟨.site, aliases, index⟩ .front).alone = .ok t := by
  obtain ⟨page, readPage, -⟩ := Disk.module_page_site
  obtain ⟨menu, readMenu, -⟩ := Disk.module_menu_site
  have outcome := alone_build ⟨.site, aliases, index⟩ .front
  rw [Disk.canonical_site.1, visits_page_site] at outcome
  simp only [List.findSome?_cons, List.findSome?_nil, Disk.failure?_eq_none_iff.mpr ⟨page, readPage⟩,
    Disk.failure?_eq_none_iff.mpr ⟨menu, readMenu⟩] at outcome
  exact outcome

/-- And the other has none, as one of its files is no module. -/
theorem build_broken_site : (build ⟨.site, aliases, index⟩ .broken).alone =
    .error (.module (.malformed ⟨"/app/broken/gone.ts"⟩ [Module.mistake])) := by
  obtain ⟨page, readPage, -⟩ := Disk.module_brokenPage_site
  obtain ⟨menu, readMenu, -⟩ := Disk.module_menu_site
  have outcome := alone_build ⟨.site, aliases, index⟩ .broken
  rw [Disk.canonical_site.2, visits_brokenPage_site] at outcome
  simp only [List.findSome?_cons, Disk.failure?_eq_none_iff.mpr ⟨page, readPage⟩,
    Disk.failure?_eq_none_iff.mpr ⟨menu, readMenu⟩,
    Disk.failure?_eq_some_iff.mpr Disk.module_gone_site] at outcome
  exact outcome

end Site

/-- The first route has a tree, and every file that can be reached from it gives a module. The other has none,
for its third visit: the files of the first two give modules. -/
theorem build_ok_iff_and_first_failure_sample :
    let s : Scope := ⟨.site, ⟨[]⟩, .ofDisk .site ⟨"/"⟩⟩
    ((∃ t, ((s.build .front).run .empty).1 = .ok t) ∧
      ∀ file, s.Reaches (Disk.site.canonical Route.front.entry) file → ∃ m, Disk.site.module file = .ok m) ∧
    (∃ e, ((s.build .broken).run .empty).1 = .error e ∧
      (¬∀ file, s.Reaches (Disk.site.canonical Route.broken.entry) file → ∃ m, Disk.site.module file = .ok m) ∧
      ∃ failure, Disk.site.module ⟨"/app/broken/gone.ts"⟩ = .error failure ∧ e = .module failure) := by
  intro s
  have wellFormed : s.WellFormed := wellFormed_site ⟨[]⟩
  have truthful := fun entry => ModuleCache.truthful_empty s.disk (s.Reaches (s.disk.canonical entry))
  obtain ⟨front, -⟩ := build_ok_iff_and_first_failure s wellFormed .front .empty (truthful _)
  obtain ⟨broken, first⟩ := build_ok_iff_and_first_failure s wellFormed .broken .empty (truthful _)
  obtain ⟨t, alone⟩ := exists_build_front_site ⟨[]⟩ (.ofDisk .site ⟨"/"⟩)
  have built := (run_build_eq_alone wellFormed .front (truthful _)).trans alone
  have fails := (run_build_eq_alone wellFormed .broken (truthful _)).trans
    (build_broken_site ⟨[]⟩ (.ofDisk .site ⟨"/"⟩))
  refine ⟨⟨⟨t, built⟩, front.mp ⟨t, built⟩⟩, _, fails, fun all => ?_, ?_⟩
  · obtain ⟨t, built⟩ := broken.mpr all
    cases fails.symm.trans built
  · obtain ⟨before, file, after, failure, visits, readable, unread, same⟩ := first _ fails
    rw [show s.disk.canonical Route.broken.entry = _ from Disk.canonical_site.2, visits_brokenPage_site] at visits
    obtain ⟨page, readPage, -⟩ := Disk.module_brokenPage_site
    obtain ⟨menu, readMenu, -⟩ := Disk.module_menu_site
    -- neither of the first two visits is the one that fails
    match before, visits with
    | [], visits =>
      cases visits
      cases readPage.symm.trans unread
    | [_], visits =>
      cases visits
      cases readMenu.symm.trans unread
    | [_, _], visits =>
      cases visits
      exact ⟨failure, unread, same⟩
    | _ :: _ :: _ :: more, visits =>
      simp at visits

end Scope

end RouteTrees
