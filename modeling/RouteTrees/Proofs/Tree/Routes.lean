import RouteTrees.Proofs.Project.Entries
import RouteTrees.Tree.Forest

/-!
# The routes of a forest

A project that has trees has routes, each once, and for each of them a tree or a reason why it has none.
-/

namespace RouteTrees.Forest

variable {d : Disk} {p : Project} {f : Forest} {route : String}

theorem map_route_grow (s : Scope) (routes : List Route) (cache : ModuleCache) :
    (grow s routes cache).1.map Outcome.route = routes := by
  induction routes generalizing cache with
  | nil => rfl
  | cons r rest ih => exact congrArg (r :: ·) (ih _)

/-- The forest of a project is that of the routes that were found. -/
theorem eq_ofRoutes_of_ofProject (built : ofProject d p = .ok f) :
    ∃ routes, RouteSet.ofDisk d p.routingRoot = .ok routes ∧ routes.isEmpty = false ∧
      f = ofRoutes d p routes := by
  unfold ofProject at built
  split at built
  · cases built
  · next routes found =>
    split at built
    · cases built
    · next nonempty =>
      cases built
      exact ⟨routes, found, eq_false_of_ne_true nonempty, rfl⟩

/-- The routes of a project's forest are those that were found. -/
theorem routes_of_ofProject (built : ofProject d p = .ok f) :
    ∃ routes, RouteSet.ofDisk d p.routingRoot = .ok routes ∧ routes.isEmpty = false ∧
      f.routes = routes.routes := by
  obtain ⟨routes, found, nonempty, rfl⟩ := eq_ofRoutes_of_ofProject built
  exact ⟨routes, found, nonempty, map_route_grow _ _ _⟩

/-- No two routes of a forest are the same. -/
theorem nodup_paths (built : ofProject d p = .ok f) : f.paths.Nodup := by
  obtain ⟨routes, found, -, same⟩ := routes_of_ofProject built
  have ordered : (routes.routes.map Route.route).Pairwise (· < ·) :=
    List.pairwise_map.mpr (RouteSet.ordered_of_ofDisk found)
  rw [paths, same]
  exact ordered.imp String.ne_of_lt

/-- A forest has a route. -/
theorem paths_ne_nil (built : ofProject d p = .ok f) : f.paths ≠ [] := by
  obtain ⟨routes, -, nonempty, same⟩ := routes_of_ofProject built
  intro none
  rw [paths, same, List.map_eq_nil_iff] at none
  rw [RouteSet.isEmpty, none] at nonempty
  cases nonempty

/-- A route of a forest has no tree if there is a reason for that, and only then. -/
theorem tree?_eq_none_iff (listed : route ∈ f.paths) :
    f.tree? route = none ↔ (f.failure? route).isSome := by
  obtain ⟨r, mem, same⟩ := List.mem_map.mp listed
  obtain ⟨o, kept, rfl⟩ := List.mem_map.mp mem
  have met : (f.outcome? route).isSome :=
    List.find?_isSome.mpr ⟨o, kept, decide_eq_true same⟩
  obtain ⟨outcome, found⟩ := Option.isSome_iff_exists.mp met
  rw [tree?, failure?, found, Option.bind_some, Option.bind_some, Outcome.tree?, Outcome.failure?]
  cases outcome.result with
  | ok t => simp [Except.toOption]
  | error e => simp [Except.toOption]

end RouteTrees.Forest
