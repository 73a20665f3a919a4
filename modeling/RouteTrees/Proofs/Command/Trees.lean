import RouteTrees.Proofs.Command.Runs
import RouteTrees.Proofs.Json.Members
import RouteTrees.Proofs.Text.Bytes
import RouteTrees.Proofs.Tree.Written

/-!
# The command for trees

What a run that shows trees prints is made of the trees of the routes asked for, each as it is built by
itself, and of the reasons why the others have none. Exit code, data and drawings agree on which these are.
-/

namespace RouteTrees

namespace Nested

open Json.Read

/-- The trees in an object: each of its members, read as a tree apart from the others. -/
def eachOfText (text : String) : Except Json.Error (List (String × Except Json.Error Nested)) :=
  Json.parse (members (fun _ => apart (read depthLimit)) depthLimit) text

/-- The trees in an object: all of its members, read as trees where they stand, one level further down. -/
def allOfText (text : String) : Except Json.Error (List (String × Nested)) :=
  Json.parse (members read depthLimit) text

/-- Some trees as the fields of an object, laid out on lines. -/
def linesOf (trees : List (String × Nested)) : String :=
  String.ofList ((Json.object (trees.map fun t => (t.1, t.2.toJson))).pretty 0) ++ "\n"

/-- What is written as lines of one object is read as that object. -/
theorem parse_linesOf {α : Type} {r : Json.Read α} {trees : List (String × Nested)}
    {result : Except Json.Error α}
    (given : Reads r (.object (trees.map fun t => (t.1, t.2.toJson))) result) :
    Json.parse r (linesOf trees) = result := by
  have numberless : (Json.object (trees.map fun t => (t.1, t.2.toJson))).Numberless := by
    refine .object fun f mem => ?_
    obtain ⟨t, -, rfl⟩ := List.mem_map.mp mem
    exact t.2.numberless_toJson
  have line : IsGap ['\n'] := rfl
  have gives := given [] _ isGap_nil (spells_pretty numberless 0)
  have ends : linesOf trees = String.ofList
      ((Json.object (trees.map fun t => (t.1, t.2.toJson))).pretty 0 ++ ['\n']) := by
    rw [linesOf, String.ofList_append]
  rw [ends]
  exact gives.parse_append line

/-- Each member is read back, whatever else is there, if it is a tree with no more than 63 nodes on any way
from its root. -/
theorem eachOfText_linesOf (trees : List (String × Nested)) : eachOfText (linesOf trees) =
    .ok (trees.map fun t => (t.1, if t.2.height + 1 ≤ 63 then .ok t.2 else .error .malformed)) := by
  have fits : ∀ t : Nested, 2 * (t.height + 1) ≤ depthLimit ↔ t.height + 1 ≤ 63 := by
    intro t
    rw [depthLimit]
    omega
  have given : Reads (members (fun _ => apart (read depthLimit)) depthLimit)
      (.object (trees.map fun t => (t.1, t.2.toJson))) _ :=
    reads_members (fun _ => apart (read depthLimit)) (depthLimit - 1) fun t _ =>
      (t.2.reads_read depthLimit).apart
  simp only [fits] at given
  rw [eachOfText, parse_linesOf given]
  exact List.mapM_pure

/-- All members are read back where they stand if all of them are such trees. -/
theorem allOfText_linesOf (trees : List (String × Nested)) : allOfText (linesOf trees) =
    if ∀ t ∈ trees, t.2.height + 1 ≤ 63 then .ok trees else .error .malformed := by
  have fits : ∀ t : Nested, 2 * (t.height + 1) ≤ depthLimit - 1 ↔ t.height + 1 ≤ 63 := by
    intro t
    rw [depthLimit]
    omega
  have given : Reads (members read depthLimit) (.object (trees.map fun t => (t.1, t.2.toJson))) _ :=
    reads_members read (depthLimit - 1) fun t _ => t.2.reads_read (depthLimit - 1)
  simp only [fits] at given
  rw [allOfText, parse_linesOf given]
  clear given
  induction trees with
  | nil => rfl
  | cons t ts ih =>
    rw [List.mapM_cons, ih]
    simp only [List.forall_mem_cons]
    by_cases first : t.2.height + 1 ≤ 63
    · by_cases later : ∀ t ∈ ts, t.2.height + 1 ≤ 63
      · rw [if_pos first, if_pos later, if_pos ⟨first, later⟩]
        rfl
      · rw [if_pos first, if_neg later, if_neg (mt And.right later)]
        rfl
    · rw [if_neg first, if_neg (mt And.left first)]
      rfl

end Nested

namespace Command

open Report.Style (paint)

variable {d : Disk} {p : Project} {s : Settings} {l : Loaded} {routes : RouteSet}

/-! ## The routes asked for -/

/-- The routes that a run is to show: all of them, or the one that it names. -/
def asked (routes : RouteSet) : Option String → List Route
  | none => routes.routes
  | some name => routes.routes.filter fun r => r.route = name

/-- The routes that are asked for are those that a report selects. -/
theorem asked_eq (routes : RouteSet) (route : Option String) :
    asked routes route = routes.routes.filter fun r => Report.isSelected route r.route := by
  cases route with
  | none => exact (List.filter_eq_self.mpr fun _ _ => rfl).symm
  | some name => exact List.filter_congr fun r _ => decide_eq_decide.mpr eq_comm

/-- Those of some routes that have a tree, each as it is built by itself. -/
def built (d : Disk) (p : Project) (rs : List Route) : List (String × Tree) :=
  rs.filterMap fun r => match Tree.ofRoute d p r with
    | .ok t => some (r.route, t)
    | .error _ => none

/-- Those of some routes that have none, each with the reason why it cannot be built by itself. -/
def failed (d : Disk) (p : Project) (rs : List Route) : List (String × String) :=
  rs.filterMap fun r => match Tree.ofRoute d p r with
    | .ok _ => none
    | .error e => some (r.route, e.message)

/-- Whether texts are in the order of their bytes, none of them twice. -/
def InByteOrder (texts : List String) : Prop := texts.Pairwise fun s t => Text.bytes s < Text.bytes t

theorem inByteOrder_paths (found : RouteSet.ofDisk d p.routingRoot = .ok routes) :
    InByteOrder routes.paths := by
  have ordered := RouteSet.ordered_of_ofDisk found
  exact List.pairwise_map.mpr (ordered.imp Text.bytes_lt_iff.mpr)

theorem InByteOrder.asked (ordered : InByteOrder routes.paths) (route : Option String) :
    InByteOrder ((asked routes route).map Route.route) := by
  rw [asked_eq]
  exact ordered.sublist (List.filter_sublist.map _)

/-- What is kept of some routes, each under its own name, is named in their order. -/
theorem sublist_filterMap {α : Type} {f : Route → Option (String × α)}
    (named : ∀ r x, f r = some x → x.1 = r.route) (rs : List Route) :
    ((rs.filterMap f).map Prod.fst).Sublist (rs.map Route.route) := by
  induction rs with
  | nil => exact .slnil
  | cons r rs ih =>
    rw [List.filterMap_cons, List.map_cons]
    cases kept : f r with
    | none => exact ih.cons r.route
    | some x =>
      rw [← named r x kept]
      exact ih.cons_cons x.1

theorem sublist_built (rs : List Route) : ((built d p rs).map Prod.fst).Sublist (rs.map Route.route) := by
  refine sublist_filterMap (fun r x kept => ?_) rs
  split at kept <;> cases kept
  rfl

theorem sublist_failed (rs : List Route) : ((failed d p rs).map Prod.fst).Sublist (rs.map Route.route) := by
  refine sublist_filterMap (fun r x kept => ?_) rs
  split at kept <;> cases kept
  rfl

/-- Each route has a tree or a failure. -/
theorem built_append_failed_perm (rs : List Route) :
    ((built d p rs).map Prod.fst ++ (failed d p rs).map Prod.fst).Perm (rs.map Route.route) := by
  induction rs with
  | nil => exact .refl _
  | cons r rs ih =>
    rw [built, failed, List.filterMap_cons, List.filterMap_cons]
    cases Tree.ofRoute d p r with
    | ok t => exact ih.cons r.route
    | error e => exact List.perm_middle.trans (ih.cons r.route)

/-- No route has a failure if and only if each has a tree. -/
theorem failed_eq_nil_iff (rs : List Route) :
    failed d p rs = [] ↔ ∀ r ∈ rs, ∃ t, Tree.ofRoute d p r = .ok t := by
  rw [failed, List.filterMap_eq_nil_iff]
  refine forall₂_congr fun r _ => ?_
  cases Tree.ofRoute d p r with
  | ok t => simp
  | error e => simp

/-! ## What is shown of a forest -/

section Forest

variable (wellFormed : d.WellFormed) (found : RouteSet.ofDisk d p.routingRoot = .ok routes) (route : Option String)

include wellFormed found

/-- The trees that are shown are those of the routes asked for, each as it is built by itself. -/
theorem filter_trees : ((Forest.ofRoutes d p routes).trees.filter fun t => Report.isSelected route t.1) =
    built d p (asked routes route) := by
  rw [Forest.ofRoutes_eq wellFormed found, Forest.trees, built, asked_eq, List.filterMap_map,
    List.filter_filterMap, List.filterMap_filter]
  refine List.filterMap_congr fun r _ => ?_
  rw [Function.comp_apply, Outcome.tree?]
  cases Tree.ofRoute d p r with
  | ok t => exact Option.filter_some
  | error e =>
    rw [ite_self]
    rfl

/-- And the reasons that are shown are those of the other routes asked for. -/
theorem filter_failures :
    ((Forest.ofRoutes d p routes).failures.filter fun e => Report.isSelected route e.1) =
      failed d p (asked routes route) := by
  rw [Forest.ofRoutes_eq wellFormed found, Forest.failures, failed, asked_eq, List.filterMap_map,
    List.filter_filterMap, List.filterMap_filter]
  refine List.filterMap_congr fun r _ => ?_
  rw [Function.comp_apply, Outcome.failure?]
  cases Tree.ofRoute d p r with
  | ok t =>
    rw [ite_self]
    rfl
  | error e => exact Option.filter_some

end Forest

/-! ## Runs -/

/-- The exit code is zero if and only if no route that is asked for has a failure. -/
theorem code_eq_zero_iff (f : Forest) (route : Option String) :
    (if f.failures.any fun e => Report.isSelected route e.1 then 1 else 0) = 0 ↔
      (f.failures.filter fun e => Report.isSelected route e.1) = [] := by
  rw [List.filter_eq_nil_iff]
  cases some : f.failures.any fun e => Report.isSelected route e.1 with
  | true =>
    obtain ⟨e, mem, selected⟩ := List.any_eq_true.mp some
    exact ⟨nofun, fun all => absurd selected (all e mem)⟩
  | false => exact ⟨fun _ => List.any_eq_false.mp some, fun _ => rfl⟩

/-- As data, the trees that are shown are members of one object. -/
theorem treeText_json (colour : Bool) (elapsed : String) (l : Loaded) (route : Option String) :
    treeText colour elapsed l route true = Nested.linesOf
      ((l.forest.trees.filter fun t => Report.isSelected route t.1).map fun t =>
        (t.1, Nested.ofTree t.2)) := by
  rw [treeText, if_pos rfl, Nested.linesOf, Report.asJson, List.map_map]
  rfl

section Run

variable (loaded : load d s = .ok l) {route : Option String} (json colour : Bool) (elapsed : String)
  (input : List ByteArray)

include loaded

/-- A run for listed routes prints the trees and ends by the failures. -/
theorem run_tree (listed : ∀ r, route = some r → r ∈ l.forest.paths) :
    (tree s route json).run d colour elapsed input =
      ⟨if l.forest.failures.any fun e => Report.isSelected route e.1 then 1 else 0,
        treeText colour elapsed l route json, "", d⟩ := by
  have admitted : (route.filter fun r => !l.forest.contains r) = none := by
    cases route with
    | none => rfl
    | some r =>
      have contained : l.forest.contains r = true := List.contains_iff_mem.mpr (listed r rfl)
      rw [Option.filter_some, contained]
      rfl
  have responds : (tree s route json).respond colour elapsed l = .ok {
      actions := [.print (treeText colour elapsed l route json)]
      code := if l.forest.failures.any fun e => Report.isSelected route e.1 then 1 else 0 } := by
    rw [respond, respondTree, admitted]
  have done : Stage.perform { disk := d } (actions colour {
      actions := [.print (treeText colour elapsed l route json)]
      code := if l.forest.failures.any fun e => Report.isSelected route e.1 then 1 else 0 } input) =
      (⟨d, "" ++ treeText colour elapsed l route json⟩, none) := rfl
  rw [run_eq loaded rfl responds, done, String.empty_append, Run.ofPerformed]

/-- A run for a route that is not listed is refused. -/
theorem run_tree_unlisted {r : String} (unlisted : r ∉ l.forest.paths) :
    (tree s (some r) json).run d colour elapsed input =
      ⟨1, "", "Error: " ++ ("Unknown route '" ++ r ++ "'") ++ "\n", d⟩ := by
  have absent : l.forest.contains r = false :=
    Bool.eq_false_iff.mpr (mt List.contains_iff_mem.mp unlisted)
  have refuses : (tree s (some r) json).respond colour elapsed l =
      .error [(Panel.Refusal.unknownRoute r).message] := by
    rw [respond, respondTree, Option.filter_some, absent]
    rfl
  rw [run_refused loaded rfl refuses]
  rfl

end Run

/-- A drawing begins with the name of its route. -/
theorem exists_drawing_eq {t : Tree} {n : TreeNode} (found : t.node? 0 = some n) (colour : Bool) (root : Path)
    (route : String) : ∃ rest, Report.drawing colour root route t = paint colour .bold route ++ " [" ++ rest := by
  simp only [Report.drawing, found, Report.unlines, Report.headLine, List.cons_append, List.map_cons,
    String.join_cons, String.append_assoc]
  exact ⟨_, rfl⟩

/-- The trees of routes have roots. -/
theorem exists_node?_of_mem_built (wellFormed : d.WellFormed) (found : RouteSet.ofDisk d p.routingRoot = .ok routes)
    {route : Option String} {t : String × Tree} (mem : t ∈ built d p (asked routes route)) :
    ∃ n, t.2.node? 0 = some n := by
  obtain ⟨r, listed, kept⟩ := List.mem_filterMap.mp mem
  rw [asked_eq] at listed
  have reads := reads_of_mem_routes wellFormed found r (List.mem_filter.mp listed).1
  split at kept
  · next tree alone =>
    cases kept
    rw [Tree.ofRoute_eq_alone wellFormed reads] at alone
    obtain ⟨n, root, -⟩ := (Scope.complete_of_alone_build alone).extend 0 _ rfl
    exact ⟨n, root⟩
  · cases kept

/-- If a project is loaded, its routes are in the order of their bytes, and a run that shows the trees of all
routes or of a listed one leaves the disk alone, tells of no error and ends well just if the tree of every
route asked for can be built by itself. Whether or not it ends well, every one of them is shown, either with
its tree or with the reason why it has none. As data these trees are the members of an object, each of which
is read back as the tree it is, apart from the others or one level down among them, if no way in it has more
than 63 nodes. As text they are drawn in order, each behind the name of its route, and behind them stand the
other routes in order, each on a line with the reason. If the route asked for is not listed, the run fails and
nothing is printed. -/
theorem trees_run_of_load (wellFormed : d.WellFormed) (loaded : load d s = .ok l) :
    ∃ routes, RouteSet.ofDisk d l.project.routingRoot = .ok routes ∧ InByteOrder routes.paths ∧
      ∀ route json colour elapsed input,
        let run := (tree s route json).run d colour elapsed input
        let rs := asked routes route
        let trees := (built d l.project rs).map fun t => (t.1, Nested.ofTree t.2)
        ((∀ r, route = some r → r ∈ routes.paths) →
          run.errors = "" ∧ run.disk = d ∧ (run.code = 0 ∨ run.code = 1) ∧
          (run.code = 0 ↔ ∀ r ∈ rs, ∃ t, Tree.ofRoute d l.project r = .ok t) ∧
          InByteOrder (trees.map Prod.fst) ∧ InByteOrder ((failed d l.project rs).map Prod.fst) ∧
          (trees.map Prod.fst ++ (failed d l.project rs).map Prod.fst).Perm (rs.map Route.route) ∧
          (json = true →
            Nested.eachOfText run.output = .ok (trees.map fun t =>
              (t.1, if t.2.height + 1 ≤ 63 then .ok t.2 else .error .malformed)) ∧
            Nested.allOfText run.output =
              if ∀ t ∈ trees, t.2.height + 1 ≤ 63 then .ok trees else .error .malformed) ∧
          (json = false → run.output =
            String.join ((built d l.project rs).map fun t =>
              Report.drawing colour l.project.root t.1 t.2) ++
            String.join ((failed d l.project rs).map fun e => paint colour .boldRed "✗" ++ " " ++
              paint colour .bold e.1 ++ " " ++ paint colour .red e.2 ++ "\n") ++
            (paint colour .brightBlue "●" ++ " Finished in " ++ paint colour .cyan elapsed ++ "ms on " ++
              paint colour .cyan (toString l.forest.filesRead) ++ " files.\n") ∧
            ∀ t ∈ built d l.project rs, ∃ rest,
              Report.drawing colour l.project.root t.1 t.2 = paint colour .bold t.1 ++ " [" ++ rest)) ∧
        ∀ r, route = some r → r ∉ routes.paths →
          run = ⟨1, "", "Error: " ++ ("Unknown route '" ++ r ++ "'") ++ "\n", d⟩ := by
  obtain ⟨-, -, -, made⟩ := load_eq_ok_iff.mp loaded
  obtain ⟨routes, found, -, forest⟩ := Forest.eq_ofRoutes_of_ofProject made
  have paths : l.forest.paths = routes.paths := by
    rw [forest, Forest.paths, Forest.routes, Forest.ofRoutes, Forest.map_route_grow, RouteSet.paths]
  have ordered := inByteOrder_paths found
  refine ⟨routes, found, ordered, fun route json colour elapsed input => ?_⟩
  intro run rs trees
  -- what is chosen of the forest, built with one cache, is what each route has by itself
  have shown := filter_trees wellFormed found route
  have told := filter_failures wellFormed found route
  rw [← forest] at shown told
  have names : trees.map Prod.fst = (built d l.project rs).map Prod.fst := List.map_map ..
  constructor
  · intro listed
    rw [← paths] at listed
    have ran : run = _ := run_tree loaded json colour elapsed input listed
    rw [ran]
    dsimp only
    refine ⟨rfl, rfl, ?_, ?_, ?_, ?_, ?_, ?_, ?_⟩
    · split
      · exact .inr rfl
      · exact .inl rfl
    · rw [← failed_eq_nil_iff, ← told]
      exact code_eq_zero_iff l.forest route
    · rw [names]
      exact (ordered.asked route).sublist (sublist_built rs)
    · exact (ordered.asked route).sublist (sublist_failed rs)
    · rw [names]
      exact built_append_failed_perm rs
    · rintro rfl
      rw [treeText_json, shown]
      exact ⟨Nested.eachOfText_linesOf trees, Nested.allOfText_linesOf trees⟩
    · rintro rfl
      refine ⟨?_, fun t mem => ?_⟩
      · rw [treeText, Report.drawings, shown, told, Report.unlines, List.map_map]
        rfl
      · obtain ⟨n, root⟩ := exists_node?_of_mem_built wellFormed found mem
        exact exists_drawing_eq root colour l.project.root t.1
  · intro r named unlisted
    subst named
    rw [← paths] at unlisted
    exact run_tree_unlisted loaded json colour elapsed input unlisted

/-- Of the two routes of a project one has no tree: a run that shows both as data has the other as its only
member and does not end well, one that shows the first as text ends well, one that shows the second has the line
that says why, and one that names no route of the project is refused. -/
theorem trees_run_of_load_sample : ∃ l, load .site {} = .ok l ∧
    let run := fun route json => (tree {} route json).run .site false "1" []
    (run none true).code = 1 ∧ (∃ read, Nested.eachOfText (run none true).output = .ok [("/", read)]) ∧
    (run (some "/") false).code = 0 ∧
    (∃ rest, (run (some "/") false).output = "/ [" ++ rest) ∧
    (run (some "/broken/") false).code = 1 ∧
    (run (some "/broken/") false).output = "✗ /broken/ Failed to parse /app/broken/gone.ts: " ++
      ModuleError.syntaxMessage ++ "\n● Finished in 1ms on 3 files.\n" ∧
    run (some "/none/") false = ⟨1, "", "Error: " ++ ("Unknown route '" ++ "/none/" ++ "'") ++ "\n", .site⟩ := by
  obtain ⟨l, loaded, root, paths, files⟩ := exists_load_site
  obtain ⟨routes, found, -, runs⟩ := trees_run_of_load Disk.wellFormed_site loaded
  rw [root] at found
  cases RouteSet.ofDisk_site.symm.trans found
  obtain ⟨t, front⟩ := Tree.ofRoute_front_site root
  have broken := Tree.ofRoute_broken_site root
  refine ⟨l, loaded, ?_⟩
  intro run
  have listed : "/" ∈ RouteSet.paths ⟨[.front, .broken]⟩ ∧ "/broken/" ∈ RouteSet.paths ⟨[.front, .broken]⟩ := by
    decide
  -- the runs for all routes, for the first, for the second and for none
  have first : asked ⟨[.front, .broken]⟩ (some "/") = [.front] := rfl
  have second : asked ⟨[.front, .broken]⟩ (some "/broken/") = [.broken] := rfl
  obtain ⟨-, -, both, good, -, -, -, data, -⟩ := (runs none true false "1" []).1 nofun
  obtain ⟨-, -, -, good', -, -, -, -, text⟩ :=
    (runs (some "/") false false "1" []).1 fun r same => Option.some.inj same ▸ listed.1
  obtain ⟨-, -, both', good'', -, -, -, -, text'⟩ :=
    (runs (some "/broken/") false false "1" []).1 fun r same => Option.some.inj same ▸ listed.2
  refine ⟨both.resolve_left fun zero => ?_, ?_, good'.mpr fun r mem => ?_, ?_, both'.resolve_left fun zero => ?_, ?_,
    (runs (some "/none/") false false "1" []).2 _ rfl (by decide)⟩
  · obtain ⟨t, built⟩ := good.mp zero .broken (List.mem_cons_of_mem _ List.mem_cons_self)
    cases broken.symm.trans built
  · obtain ⟨each, -⟩ := data rfl
    rw [asked, built, List.filterMap_cons, front, List.filterMap_cons, broken] at each
    exact ⟨_, each⟩
  · rw [first, List.mem_singleton] at mem
    exact ⟨t, mem ▸ front⟩
  · obtain ⟨output, drawn⟩ := text rfl
    rw [first, built, List.filterMap_cons, front] at output drawn
    obtain ⟨rest, same⟩ := drawn _ List.mem_cons_self
    rw [List.filterMap_nil, List.map_singleton, String.join_cons, same] at output
    have plain : paint false .bold Route.front.route = "/" := rfl
    rw [show run (some "/") false = _ from rfl, output, plain]
    simp only [String.append_assoc]
    exact ⟨_, rfl⟩
  · obtain ⟨t, built⟩ := good''.mp zero .broken (second ▸ List.mem_cons_self)
    cases broken.symm.trans built
  · obtain ⟨output, -⟩ := text' rfl
    rw [second, built, failed, List.filterMap_cons, List.filterMap_cons, broken, files] at output
    exact output

end Command

end RouteTrees
