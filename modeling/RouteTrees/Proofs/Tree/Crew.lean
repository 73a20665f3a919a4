import Mathlib.Data.Finset.Card
import Mathlib.Data.Finset.Dedup
import RouteTrees.Proofs.Tree.Visits
import RouteTrees.Tree.Forest

/-!
# Builds that run at the same time

The builds of a project's routes run at the same time and share a cache. An access to the cache is a
single step, and which build takes the next one is left open. Each build reads, so no step changes what
any of them comes to, nor which files are remembered in the end: every order gives the same forest, the
one of building one route after the other.
-/

namespace RouteTrees

/-- The answer of a program, if it has come to one. -/
def Build.answer? {α : Type} : Build α → Option (Except BuildError α)
  | done a => some (.ok a)
  | failed e => some (.error e)
  | _ => none

/-- The builds that run, each for its route, and the cache that they share. -/
structure Crew where
  members : List (Route × Build Tree)
  cache : ModuleCache

namespace Crew

/-- A crew that has not begun. -/
def start (s : Scope) (routes : RouteSet) : Crew :=
  ⟨routes.routes.map fun r => (r, s.build r), .empty⟩

/-- What a crew may do next: one of its builds goes on by one file, asked of the cache or of the disk. -/
inductive Step : Crew → Crew → Prop where
  | access {before after r b b' c c'} (access : Build.Step (b, c) (b', c')) :
      Step ⟨before ++ (r, b) :: after, c⟩ ⟨before ++ (r, b') :: after, c'⟩

/-- The forest, once all builds have come to an answer. -/
def forest? (crew : Crew) : Option Forest :=
  (crew.members.mapM fun m : Route × Build Tree => m.2.answer?.map (Outcome.mk m.1)).map
    fun outcomes => ⟨outcomes, crew.cache.size⟩

/-! ## Every order comes to an end -/

/-- A program runs out of steps, whatever it is told. -/
theorem acc_build {α : Type} (b : Build α) :
    Acc (fun b' b => ∃ c c', Build.Step (b, c) (b', c')) b := by
  induction b with
  | done a => exact Acc.intro _ fun b' ⟨_, _, step⟩ => nomatch step
  | failed e => exact Acc.intro _ fun b' ⟨_, _, step⟩ => nomatch step
  | lookUp file next ih =>
    refine Acc.intro _ fun b' ⟨_, _, step⟩ => ?_
    cases step
    exact ih _
  | remember file m next ih =>
    refine Acc.intro _ fun b' ⟨_, _, step⟩ => ?_
    cases step
    exact ih

/-- Whether one of some builds has taken a step. -/
def Advances (next members : List (Route × Build Tree)) : Prop :=
  ∃ before after r b b', members = before ++ (r, b) :: after ∧ next = before ++ (r, b') :: after ∧
    ∃ c c', Build.Step (b, c) (b', c')

/-- If the others run out of steps, so they do with one build more: by induction on the steps that are
left to it, and on those that are left to the others. -/
theorem acc_cons (r : Route) (b : Build Tree) {members : List (Route × Build Tree)}
    (others : Acc Advances members) : Acc Advances ((r, b) :: members) := by
  induction acc_build b generalizing members with
  | intro b _ ihBuild =>
    induction others with
    | intro members acc ihOthers =>
      refine Acc.intro _ fun next ⟨before, after, r', b₀, b', whole, advanced, step⟩ => ?_
      cases before with
      | nil =>
        cases whole
        exact advanced ▸ ihBuild b' step (Acc.intro _ acc)
      | cons first before =>
        cases whole
        exact advanced ▸ ihOthers _ ⟨before, after, r', b₀, b', rfl, rfl, step⟩

/-- No crew can take steps for ever. -/
theorem acc_step (crew : Crew) : Acc (fun next crew => Step crew next) crew := by
  have acc : Acc Advances crew.members := by
    induction crew.members with
    | nil =>
      refine Acc.intro _ fun next ⟨before, after, r, b, b', whole, _⟩ => ?_
      exact absurd whole.symm (List.append_ne_nil_of_right_ne_nil _ (List.cons_ne_nil _ _))
    | cons m rest ih => exact acc_cons m.1 m.2 ih
  have inverse := InvImage.accessible Crew.members acc
  refine Subrelation.accessible (fun {next crew} step => ?_) inverse
  obtain ⟨access⟩ := step
  exact ⟨_, _, _, _, _, rfl, rfl, _, _, access⟩

/-! ## What a step keeps -/

/-- What is kept in every order: what the builds come to, that the cache is truthful and tidy, and which
files are remembered in the end. -/
structure Sound (s : Scope) (files : Path → Prop) (routes : List Route) (crew : Crew) : Prop where
  answers : (crew.members.map fun m => Outcome.mk m.1 m.2.alone) =
    routes.map fun r => ⟨r, (s.build r).alone⟩
  reads : ∀ m ∈ crew.members, m.2.Reads s.disk files
  truthful : crew.cache.Truthful s.disk files
  tidy : crew.cache.Tidy files
  needs : ∀ file, files file →
    ((crew.cache.Knows file ∨ ∃ m ∈ crew.members, file ∈ m.2.needs s.disk) ↔
      ∃ r ∈ routes, file ∈ (s.build r).needs s.disk)

variable {s : Scope} {files : Path → Prop}

/-- A crew is sound before it begins. -/
theorem sound_start {routes : RouteSet} (reads : ∀ r ∈ routes.routes, (s.build r).Reads s.disk files) :
    (start s routes).Sound s files routes.routes where
  answers := List.map_map
  reads m mem := by
    obtain ⟨r, listed, rfl⟩ := List.mem_map.mp mem
    exact reads r listed
  truthful := ModuleCache.truthful_empty _ _
  tidy := ModuleCache.tidy_empty _
  needs file _ := by
    simp only [start, ModuleCache.not_knows_empty, false_or, List.mem_map, exists_exists_and_eq_and]

/-- A step keeps a crew sound. -/
theorem Sound.step {routes : List Route} {crew next : Crew} (sound : crew.Sound s files routes)
    (distinct : Path.Distinct files) (step : Step crew next) : next.Sound s files routes := by
  obtain ⟨access⟩ := step
  next before after r b b' c c' =>
  -- one member has taken an access; the others are where they were
  have reads := sound.reads (r, b) (List.mem_append_right _ List.mem_cons_self)
  obtain ⟨reads', same, truthful, tidy, needs⟩ := reads.step distinct sound.truthful access
  refine {
    answers := ?answers
    reads := ?reads
    truthful := truthful
    tidy := tidy sound.tidy
    needs := ?needs }
  case answers =>
    have answers := sound.answers
    rw [List.map_append, List.map_cons] at answers ⊢
    rw [same]
    exact answers
  case reads =>
    intro m mem
    rcases List.mem_append.mp mem with old | rest
    · exact sound.reads m (List.mem_append_left _ old)
    · rcases List.mem_cons.mp rest with rfl | old
      · exact reads'
      · exact sound.reads m (List.mem_append_right _ (List.mem_cons_of_mem _ old))
  case needs =>
    intro file asked
    rw [← sound.needs file asked]
    have one := needs file asked
    simp only [List.mem_append, List.mem_cons, or_and_right, exists_or, exists_eq_left]
    constructor
    · rintro (known | old | here | old)
      · exact (one.mp (.inl known)).imp_right fun needed => .inr (.inl needed)
      · exact .inr (.inl old)
      · exact (one.mp (.inr here)).imp_right fun needed => .inr (.inl needed)
      · exact .inr (.inr (.inr old))
    · rintro (known | old | here | old)
      · exact (one.mpr (.inl known)).imp_right fun needed => .inr (.inl needed)
      · exact .inr (.inl old)
      · exact (one.mpr (.inr here)).imp_right fun needed => .inr (.inl needed)
      · exact .inr (.inr (.inr old))

/-- A crew stays sound, by induction on its steps. -/
theorem Sound.steps {routes : List Route} {crew last : Crew} (sound : crew.Sound s files routes)
    (distinct : Path.Distinct files) (steps : Relation.ReflTransGen Step crew last) :
    last.Sound s files routes := by
  induction steps with
  | refl => exact sound
  | tail _ step ih => exact ih.step distinct step

/-! ## What a crew comes to -/

/-- A program has come to its answer alone, or it can take a step from any cache. -/
theorem answer?_or_step {α : Type} (b : Build α) (c : ModuleCache) :
    (b.answer? = some b.alone ∧ ∀ d, b.needs d = []) ∨
      b.answer? = none ∧ ∃ next, Build.Step (b, c) next := by
  cases b with
  | done a => exact .inl ⟨rfl, fun _ => rfl⟩
  | failed e => exact .inl ⟨rfl, fun _ => rfl⟩
  | lookUp file next => exact .inr ⟨rfl, _, .lookUp file next c⟩
  | remember file m next => exact .inr ⟨rfl, _, .remember file m next c⟩

/-- A crew has come to a forest, and needs nothing more, or it can take a step. -/
theorem forest?_or_step (crew : Crew) :
    (crew.forest? = some ⟨crew.members.map fun m => ⟨m.1, m.2.alone⟩, crew.cache.size⟩ ∧
      ∀ m ∈ crew.members, ∀ d, m.2.needs d = []) ∨
    crew.forest? = none ∧ ∃ next, Step crew next := by
  obtain ⟨members, c⟩ := crew
  -- either all members are done, or the first that is not can take a step
  have all : (members.mapM (fun m : Route × Build Tree => m.2.answer?.map (Outcome.mk m.1)) =
        some (members.map fun m => ⟨m.1, m.2.alone⟩) ∧ ∀ m ∈ members, ∀ d, m.2.needs d = []) ∨
      (members.mapM fun m : Route × Build Tree => m.2.answer?.map (Outcome.mk m.1)) = none ∧
        ∃ before after r b, members = before ++ (r, b) :: after ∧
          ∃ next, Build.Step (b, c) next := by
    induction members with
    | nil => exact .inl ⟨rfl, fun _ mem => (nomatch mem)⟩
    | cons m rest ih =>
      obtain ⟨r, b⟩ := m
      rcases answer?_or_step b c with ⟨answered, done⟩ | ⟨open_, step⟩
      · rcases ih with ⟨others, done'⟩ | ⟨others, before, after, r', b', rfl, step⟩
        · refine .inl ⟨?_, List.forall_mem_cons.mpr ⟨done, done'⟩⟩
          rw [List.mapM_cons, answered, others]
          rfl
        · refine .inr ⟨?_, (r, b) :: before, after, r', b', rfl, step⟩
          rw [List.mapM_cons, answered, others]
          rfl
      · refine .inr ⟨?_, [], rest, r, b, rfl, step⟩
        rw [List.mapM_cons, open_]
        rfl
  rcases all with ⟨outcomes, done⟩ | ⟨none, before, after, r, b, rfl, ⟨b', c'⟩, step⟩
  · exact .inl ⟨by rw [forest?, outcomes, Option.map_some], done⟩
  · exact .inr ⟨by rw [forest?, none, Option.map_none], _, .access step⟩

end Crew

/-! ## One build after the other -/

variable {s : Scope} {files : Path → Prop}

/-- Building one route after the other, each comes to what it does alone. -/
theorem Forest.grow_eq (distinct : Path.Distinct files) {routes : List Route}
    (reads : ∀ r ∈ routes, (s.build r).Reads s.disk files) {c : ModuleCache}
    (truthful : c.Truthful s.disk files) (tidy : c.Tidy files) :
    (Forest.grow s routes c).1 = routes.map (fun r => ⟨r, (s.build r).alone⟩) ∧
      (Forest.grow s routes c).2.Tidy files ∧
      ∀ file, files file → ((Forest.grow s routes c).2.Knows file ↔
        c.Knows file ∨ ∃ r ∈ routes, file ∈ (s.build r).needs s.disk) := by
  induction routes generalizing c with
  | nil => exact ⟨rfl, tidy, fun _ _ => by simp only [Forest.grow, List.not_mem_nil, false_and,
      exists_false, or_false]⟩
  | cons r rest ih =>
    obtain ⟨first, others⟩ := List.forall_mem_cons.mp reads
    obtain ⟨answer, truthful', tidy', knows⟩ := first.run distinct truthful
    obtain ⟨answers, tidy'', knows'⟩ := ih others truthful' (tidy' tidy)
    refine ⟨?_, tidy'', fun file asked => ?_⟩
    · rw [List.map_cons, ← answers, ← answer]
      rfl
    · rw [show (Forest.grow s (r :: rest) c).2 = (Forest.grow s rest ((s.build r).run c).2).2 from rfl,
        knows' file asked, knows file asked, List.exists_mem_cons_iff, or_assoc]

/-- A tidy cache holds as many modules as there are files that it knows. -/
theorem ModuleCache.Tidy.size_eq {c : ModuleCache} (tidy : c.Tidy files)
    (distinct : Path.Distinct files) {known : List Path}
    (same : ∀ file, (files file ∧ c.Knows file) ↔ file ∈ known) : c.size = known.toFinset.card := by
  have keys : c.keys.toFinset = known.toFinset := by
    ext file
    rw [List.mem_toFinset, List.mem_toFinset, ← same file]
    refine ⟨fun mem => ?_, fun ⟨asked, knows⟩ => (tidy.knows_iff distinct asked).mp knows⟩
    have asked := tidy.inside file mem
    exact ⟨asked, (tidy.knows_iff distinct asked).mpr mem⟩
  rw [← c.length_keys, ← keys, List.toFinset_card_of_nodup tidy.once]

/-- The files that the build of a single route of a project reads as modules: those that are visited before the
first that gives none. -/
def Tree.filesRead (d : Disk) (p : Project) (r : Route) : List Path :=
  ((Scope.ofProject d p).visits [] (d.canonical r.entry)).takeWhile fun file => (d.module file).isOk

/-! ## The forest of a project -/

section Project

variable {d : Disk} {p : Project} {routes : RouteSet}

/-- Canonical files are told apart by their paths. -/
theorem distinct_isCanonicalFile (wellFormed : d.WellFormed) : Path.Distinct d.IsCanonicalFile :=
  fun _ _ isP isQ same =>
    (isP.isCanonical wellFormed).eq_of_same (isQ.isCanonical wellFormed) same

/-- The builds of a project only read files by their canonical names. -/
theorem reads_of_mem_routes (wellFormed : d.WellFormed)
    (found : RouteSet.ofDisk d p.routingRoot = .ok routes) :
    ∀ r ∈ routes.routes, ((Scope.ofProject d p).build r).Reads d d.IsCanonicalFile := by
  intro r mem
  refine Scope.reads_build (s := .ofProject d p) (fun file m c _ _ imported => ?_) ?_
  · obtain ⟨specifier, -, chosen⟩ := List.mem_filterMap.mp imported
    obtain ⟨q, resolved, rfl⟩ := Option.map_eq_some_iff.mp chosen
    rcases Scope.isSource_of_resolve? resolved with ⟨path, source⟩ | indexed
    · exact Disk.place_of_sourceAt? source
    · exact FileIndex.isCanonicalFile_of_mem_ofDisk wellFormed indexed
  · obtain ⟨place, content, there, named⟩ :=
      RouteSet.isCanonicalFile_of_mem_ofDisk wellFormed found mem
    have located : d.locate true (Place.toPath place) = .ok place :=
      Disk.locate_toPath wellFormed there fun _ => Node.noConfusion
    exact ⟨place, content, there, named ▸ Disk.canonical_of_locate located⟩

theorem Tree.needs_eq_filesRead (d : Disk) (p : Project) (r : Route) :
    ((Scope.ofProject d p).build r).needs d = Tree.filesRead d p r :=
  Scope.needs_build (.ofProject d p) r

/-- A build alone leaves the files that it reads in an empty cache. -/
theorem Tree.mem_keys_iff (wellFormed : d.WellFormed) {r : Route}
    (reads : ((Scope.ofProject d p).build r).Reads d d.IsCanonicalFile) {file : Path} :
    file ∈ (((Scope.ofProject d p).build r).run .empty).2.keys ↔ file ∈ Tree.filesRead d p r := by
  have distinct := distinct_isCanonicalFile wellFormed
  obtain ⟨-, -, tidy, knows⟩ := reads.run distinct (ModuleCache.truthful_empty d _)
  have tidy := tidy (ModuleCache.tidy_empty _)
  have known (asked : d.IsCanonicalFile file) :
      file ∈ (((Scope.ofProject d p).build r).run .empty).2.keys ↔ file ∈ Tree.filesRead d p r := by
    rw [← Tree.needs_eq_filesRead, ← tidy.knows_iff distinct asked, knows file asked]
    exact ⟨fun either => either.resolve_left (ModuleCache.not_knows_empty file), .inr⟩
  refine ⟨fun mem => (known (tidy.inside file mem)).mp mem, fun mem => (known ?_).mpr mem⟩
  rw [← Tree.needs_eq_filesRead] at mem
  exact reads.of_mem_needs mem

/-- The tree of a route is what its build makes alone. -/
theorem Tree.ofRoute_eq_alone (wellFormed : d.WellFormed) {r : Route}
    (reads : ((Scope.ofProject d p).build r).Reads d d.IsCanonicalFile) :
    Tree.ofRoute d p r = ((Scope.ofProject d p).build r).alone :=
  (reads.run (distinct_isCanonicalFile wellFormed) (ModuleCache.truthful_empty d _)).1

/-- The files that some builds need are those that are read by one of them alone. -/
theorem Tree.mem_flatMap_filesRead (wellFormed : d.WellFormed)
    (found : RouteSet.ofDisk d p.routingRoot = .ok routes) (file : Path) :
    (d.IsCanonicalFile file ∧
        ∃ r ∈ routes.routes, file ∈ ((Scope.ofProject d p).build r).needs d) ↔
      file ∈ routes.routes.flatMap (Tree.filesRead d p) := by
  rw [List.mem_flatMap]
  constructor
  · rintro ⟨-, r, mem, needed⟩
    exact ⟨r, mem, Tree.needs_eq_filesRead d p r ▸ needed⟩
  · rintro ⟨r, mem, read⟩
    rw [← Tree.needs_eq_filesRead] at read
    exact ⟨(reads_of_mem_routes wellFormed found r mem).of_mem_needs read, r, mem, read⟩

/-- In the forest each route has what it comes to alone, and as many files have been read as are by at
least one build alone. -/
theorem Forest.ofRoutes_eq (wellFormed : d.WellFormed)
    (found : RouteSet.ofDisk d p.routingRoot = .ok routes) :
    Forest.ofRoutes d p routes = ⟨routes.routes.map fun r => ⟨r, Tree.ofRoute d p r⟩,
      (routes.routes.flatMap (Tree.filesRead d p)).toFinset.card⟩ := by
  have distinct := distinct_isCanonicalFile wellFormed
  have reads := reads_of_mem_routes wellFormed found
  obtain ⟨outcomes, tidy, knows⟩ := Forest.grow_eq (s := .ofProject d p) distinct reads
    (ModuleCache.truthful_empty d _) (ModuleCache.tidy_empty _)
  have size := tidy.size_eq distinct fun file => by
    rw [← Tree.mem_flatMap_filesRead wellFormed found]
    refine and_congr_right fun asked => (knows file asked).trans ?_
    exact ⟨fun either => either.resolve_left (ModuleCache.not_knows_empty file), .inr⟩
  rw [Forest.ofRoutes]
  simp only [outcomes, size]
  congr 1
  refine List.map_congr_left fun r mem => ?_
  rw [Tree.ofRoute_eq_alone wellFormed (reads r mem)]

/-- In every order the builds come to the forest of building one route after the other. -/
theorem Crew.forest?_eq (wellFormed : d.WellFormed)
    (found : RouteSet.ofDisk d p.routingRoot = .ok routes) {crew : Crew}
    (steps : Relation.ReflTransGen Step (start (.ofProject d p) routes) crew) :
    crew.forest? = some (Forest.ofRoutes d p routes) ∨
      crew.forest? = none ∧ ∃ next, Step crew next := by
  have distinct := distinct_isCanonicalFile wellFormed
  have reads := reads_of_mem_routes wellFormed found
  have sound := (sound_start (s := .ofProject d p) reads).steps distinct steps
  refine (forest?_or_step crew).imp_left fun ⟨done, needs⟩ => ?_
  have size := sound.tidy.size_eq distinct fun file => by
    rw [← Tree.mem_flatMap_filesRead wellFormed found]
    refine and_congr_right fun asked => Iff.trans ?_ (sound.needs file asked)
    refine ⟨.inl, fun either => either.resolve_right fun ⟨m, mem, needed⟩ => ?_⟩
    rw [needs m mem] at needed
    cases needed
  rw [done, sound.answers, size, Forest.ofRoutes_eq wellFormed found]
  congr 2
  refine List.map_congr_left fun r mem => ?_
  rw [Tree.ofRoute_eq_alone wellFormed (reads r mem)]

/-- A route of a forest has a tree or a reason why it has none, and not both. -/
theorem Forest.tree?_and_failure? {f : Forest} (ordered : RouteSet.Ordered routes.routes)
    {result : Route → Except BuildError Tree}
    (outcomes : f.outcomes = routes.routes.map fun r => ⟨r, result r⟩) {r : Route}
    (mem : r ∈ routes.routes) :
    match result r with
    | .ok t => f.tree? r.route = some t ∧ f.failure? r.route = none
    | .error e => f.tree? r.route = none ∧ f.failure? r.route = some e.message := by
  have outcome : f.outcome? r.route = some ⟨r, result r⟩ := by
    have same : ((fun o : Outcome => decide (o.route.route = r.route)) ∘ fun r => ⟨r, result r⟩) =
        fun q : Route => decide (q.route = r.route) := rfl
    rw [outcome?, outcomes, List.find?_map, same, ordered.find?_eq mem, Option.map_some]
  rw [tree?, failure?, outcome, Option.bind_some, Option.bind_some, Outcome.tree?, Outcome.failure?]
  cases result r with
  | ok t => exact ⟨rfl, rfl⟩
  | error e => exact ⟨rfl, rfl⟩

/-- Whatever order the builds of a project's routes take their steps in, they come to an end and to the
same forest, that of the project. Each route has there what it comes to alone, a tree or why there is
none. A build alone reads the files that it visits before the first that gives no module, and as many files
have been read in all as are by at least one of the builds alone. -/
theorem Crew.forest_of_every_order (d : Disk) (wellFormed : d.WellFormed) (p : Project)
    (routes : RouteSet) (found : RouteSet.ofDisk d p.routingRoot = .ok routes)
    (nonempty : routes.isEmpty = false) :
    ∃ f, Forest.ofProject d p = .ok f ∧
      Acc (fun next crew => Step crew next) (start (.ofProject d p) routes) ∧
      (∀ crew, Relation.ReflTransGen Step (start (.ofProject d p) routes) crew →
        crew.forest? = some f ∨ crew.forest? = none ∧ ∃ next, Step crew next) ∧
      f.routes = routes.routes ∧
      (∀ r ∈ routes.routes, match Tree.ofRoute d p r with
        | .ok t => f.tree? r.route = some t ∧ f.failure? r.route = none
        | .error e => f.tree? r.route = none ∧ f.failure? r.route = some e.message) ∧
      (∀ r ∈ routes.routes, ∀ file,
        file ∈ (((Scope.ofProject d p).build r).run .empty).2.keys ↔ file ∈ Tree.filesRead d p r) ∧
      f.filesRead = (routes.routes.flatMap (Tree.filesRead d p)).toFinset.card := by
  have forest := Forest.ofRoutes_eq wellFormed found
  refine ⟨Forest.ofRoutes d p routes, ?_, acc_step _, fun _ => forest?_eq wellFormed found, ?_, ?_,
    fun r mem _ => Tree.mem_keys_iff wellFormed (reads_of_mem_routes wellFormed found r mem), ?_⟩
  · rw [Forest.ofProject, found]
    simp only [nonempty, Bool.false_eq_true, if_false]
  · rw [forest, Forest.routes, List.map_map]
    exact List.map_id _
  · have ordered := RouteSet.ordered_of_ofDisk found
    exact fun r mem => Forest.tree?_and_failure? ordered (congrArg Forest.outcomes forest) mem
  · rw [forest]

end Project

/-- On the disk of the page that imports itself, a walk meets the root and the page. -/
theorem Disk.walk_sample : ∃ name, sample.walk ⟨"/"⟩ =
    .ok [⟨⟨"/"⟩, name, .directory, 0⟩, ⟨⟨"/page.ts"⟩, "page.ts", .file, 1⟩] := by
  have spelled : Path.mk "/" = Place.toPath [] := by decide
  have joined : (Place.toPath []).join ⟨"page.ts"⟩ = ⟨"/page.ts"⟩ := by decide
  have there : sample.root.at? [] = some (.dir [("page.ts", .file "import './page'".toUTF8)]) := rfl
  refine ⟨(Path.mk "/").fileName?.getD "/", ?_⟩
  rw [spelled, walk_toPath wellFormed_sample there]
  simp only [walkNode, walkEntries, joined]
  rfl

theorem RouteSet.ofDisk_sample : ofDisk .sample ⟨"/"⟩ = .ok ⟨[.sample]⟩ := by
  obtain ⟨name, walked⟩ := Disk.walk_sample
  have isEntry : Route.isEntry ⟨"/page.ts"⟩ = true := by decide
  have below : (Path.mk "/page.ts").stripBase? ⟨"/"⟩ = some ⟨"page.ts"⟩ := by decide
  have route : Route.ofEntry ⟨"page.ts"⟩ = "/" := by decide
  rw [ofDisk, walked]
  simp only [Except.map, List.foldl_cons, List.foldl_nil, insertEntry, isEntry, below, route,
    Disk.holdsPage_sample.canonical]
  rfl

/-- A walk through the routing directory of the project with two routes meets the link, but does not follow it. -/
theorem Disk.walk_site : ∃ name, site.walk ⟨"/app"⟩ = .ok [⟨⟨"/app"⟩, name, .directory, 0⟩,
    ⟨⟨"/app/page.ts"⟩, "page.ts", .file, 1⟩, ⟨⟨"/app/menu.ts"⟩, "menu.ts", .file, 1⟩,
    ⟨⟨"/app/again"⟩, "again", .other, 1⟩, ⟨⟨"/app/broken"⟩, "broken", .directory, 1⟩,
    ⟨⟨"/app/broken/page.ts"⟩, "page.ts", .file, 2⟩, ⟨⟨"/app/broken/gone.ts"⟩, "gone.ts", .file, 2⟩] :=
  by
  have there : site.root.at? ["app"] = some (.dir _) := rfl
  exact ⟨_, walk_toPath wellFormed_site there⟩

/-- The site has two routes. -/
theorem RouteSet.ofDisk_site : ofDisk .site ⟨"/app"⟩ = .ok ⟨[.front, .broken]⟩ := by
  obtain ⟨name, walked⟩ := Disk.walk_site
  have entries : Route.isEntry ⟨"/app/page.ts"⟩ = true ∧ Route.isEntry ⟨"/app/broken/page.ts"⟩ = true ∧
      Route.isEntry ⟨"/app/menu.ts"⟩ = false ∧ Route.isEntry ⟨"/app/broken/gone.ts"⟩ = false := by decide
  have below : (Path.mk "/app/page.ts").stripBase? ⟨"/app"⟩ = some ⟨"page.ts"⟩ ∧
      (Path.mk "/app/broken/page.ts").stripBase? ⟨"/app"⟩ = some ⟨"broken/page.ts"⟩ := by decide
  have routes : Route.ofEntry ⟨"page.ts"⟩ = "/" ∧ Route.ofEntry ⟨"broken/page.ts"⟩ = "/broken/" := by
    decide
  have front := Disk.canonical_site.1
  have broken := Disk.canonical_site.2
  rw [Route.front] at front
  rw [Route.broken] at broken
  rw [ofDisk, walked]
  simp only [Except.map, List.foldl_cons, List.foldl_nil, insertEntry, entries, below, routes, front, broken,
    reduceCtorEq, decide_false, decide_true, Bool.false_and, Bool.and_false, Bool.and_self, Bool.false_eq_true,
    if_false, if_true]
  decide

section Site

variable {p : Project} (root : p.routingRoot = ⟨"/app"⟩)

include root

/-- The build of the first route by itself comes to a tree. -/
theorem Tree.ofRoute_front_site : ∃ t, Tree.ofRoute .site p .front = .ok t := by
  have found : RouteSet.ofDisk .site p.routingRoot = .ok ⟨[.front, .broken]⟩ := root ▸ RouteSet.ofDisk_site
  obtain ⟨t, built⟩ := Scope.exists_build_front_site p.aliases (.ofDisk .site p.root)
  exact ⟨t, (ofRoute_eq_alone Disk.wellFormed_site
    (reads_of_mem_routes Disk.wellFormed_site found _ List.mem_cons_self)).trans built⟩

/-- The build of the other route by itself fails. -/
theorem Tree.ofRoute_broken_site : Tree.ofRoute .site p .broken =
    .error (.module (.malformed ⟨"/app/broken/gone.ts"⟩ [Script.Module.mistake])) := by
  have found : RouteSet.ofDisk .site p.routingRoot = .ok ⟨[.front, .broken]⟩ := root ▸ RouteSet.ofDisk_site
  exact (ofRoute_eq_alone Disk.wellFormed_site
    (reads_of_mem_routes Disk.wellFormed_site found _ (List.mem_cons_of_mem _ List.mem_cons_self))).trans
      (Scope.build_broken_site p.aliases (.ofDisk .site p.root))

end Site

/-- Each of the two builds reads its page and the shared file, but not the one that is no module. -/
theorem Tree.filesRead_site (p : Project) :
    Tree.filesRead .site p .front = [⟨"/app/page.ts"⟩, ⟨"/app/menu.ts"⟩] ∧
    Tree.filesRead .site p .broken = [⟨"/app/broken/page.ts"⟩, ⟨"/app/menu.ts"⟩] := by
  obtain ⟨page, readPage, -⟩ := Disk.module_page_site
  obtain ⟨brokenPage, readBrokenPage, -⟩ := Disk.module_brokenPage_site
  obtain ⟨menu, readMenu, -⟩ := Disk.module_menu_site
  constructor
  · rw [filesRead, Disk.canonical_site.1, Scope.ofProject, Scope.visits_page_site]
    simp only [List.takeWhile_cons, List.takeWhile_nil, readPage, readMenu, Except.isOk, Except.toBool, if_true]
  · rw [filesRead, Disk.canonical_site.2, Scope.ofProject, Scope.visits_brokenPage_site]
    simp only [List.takeWhile_cons, readBrokenPage, readMenu, Disk.module_gone_site, Except.isOk, Except.toBool,
      if_true, Bool.false_eq_true, if_false]

/-- Whatever order the builds of the two routes take their steps in, they come to a forest in which the first
has a tree and the other has none, and the file that they share counts once. -/
theorem Crew.forest_of_every_order_sample :
    let p : Project := ⟨⟨"/"⟩, ⟨"/app"⟩, ⟨[]⟩⟩
    ∃ f, Forest.ofProject .site p = .ok f ∧
      (∀ crew, Relation.ReflTransGen Step (start (.ofProject .site p) ⟨[.front, .broken]⟩) crew →
        crew.forest? = some f ∨ crew.forest? = none ∧ ∃ next, Step crew next) ∧
      f.routes = [.front, .broken] ∧ (∃ t, f.tree? "/" = some t) ∧ f.tree? "/broken/" = none ∧
      f.filesRead = 3 := by
  intro p
  obtain ⟨f, forest, -, ends, routes, outcomes, -, read⟩ := forest_of_every_order .site Disk.wellFormed_site p
    ⟨[.front, .broken]⟩ RouteSet.ofDisk_site rfl
  refine ⟨f, forest, ends, routes, ?_, ?_, ?_⟩
  · obtain ⟨t, alone⟩ := Tree.ofRoute_front_site (p := p) rfl
    have outcome := outcomes .front List.mem_cons_self
    rw [alone] at outcome
    exact ⟨t, outcome.1⟩
  · have outcome := outcomes .broken (List.mem_cons_of_mem _ List.mem_cons_self)
    rw [Tree.ofRoute_broken_site rfl] at outcome
    exact outcome.1
  · rw [read, List.flatMap_cons, List.flatMap_cons, (Tree.filesRead_site p).1, (Tree.filesRead_site p).2]
    decide

end RouteTrees
