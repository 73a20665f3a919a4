import RouteTrees.Proofs.Panel.Messages
import RouteTrees.Proofs.Tree.Crew
import RouteTrees.Proofs.Tree.Routes

/-!
# Runs of a panel

What a panel shows after any number of messages. It is always on a route of its forest, so it is the panel
that would have been opened there; a message that it refuses leaves no trace. Whether its document shows a
tree or an error is settled by the forest, which has one of them for each route.
-/

namespace RouteTrees.Panel

open Text (occurrences)

/-! ## Messages one after the other -/

/-- What a panel answers to a message: its document once it has done as asked. -/
def reply (p : Panel) (m : Message) : Except Refusal String := (p.handle m).map document

/-- What a panel is behind a message. -/
def next (p : Panel) (m : Message) : Panel :=
  match p.handle m with
  | .ok q => q
  | .error _ => p

/-- What a panel is behind some messages. -/
def after (p : Panel) (ms : List Message) : Panel := ms.foldl next p

variable {f : Forest} {p : Panel} {route : String}

theorem after_append (p : Panel) (first second : List Message) :
    p.after (first ++ second) = (p.after first).after second := List.foldl_append

/-- A message changes the current route if its route is listed. -/
theorem next_changeRoute (p : Panel) (route : String) : p.next (.changeRoute route) =
    if route ∈ p.forest.paths then { p with current := route } else p := by
  rw [next, handle_changeRoute]
  by_cases listed : route ∈ p.forest.paths
  · rw [if_pos listed, if_pos listed]
  · rw [if_neg listed, if_neg listed]

/-- Whether a panel shows a route of a forest. -/
structure Shows (f : Forest) (p : Panel) : Prop where
  forest : p.forest = f
  listed : p.current ∈ f.paths

/-- A message leaves the forest, and a listed route current. -/
theorem Shows.next (shows : Shows f p) (m : Message) : Shows f (p.next m) := by
  obtain ⟨route⟩ := m
  rw [next_changeRoute]
  split
  · next listed => exact ⟨shows.forest, shows.forest ▸ listed⟩
  · exact shows

theorem Shows.after (shows : Shows f p) (ms : List Message) : Shows f (p.after ms) := by
  induction ms generalizing p with
  | nil => exact shows
  | cons m ms ih => exact ih (shows.next m)

/-- A message for a route that the forest does not have is as if it had not been sent. -/
theorem Shows.after_refused (shows : Shows f p) (unlisted : route ∉ f.paths) (ms later : List Message) :
    p.after (ms ++ .changeRoute route :: later) = p.after (ms ++ later) := by
  have stays : (p.after ms).next (.changeRoute route) = p.after ms := by
    rw [next_changeRoute, (shows.after ms).forest, if_neg unlisted]
  rw [after_append, after_append, Panel.after, List.foldl_cons, stays]
  rfl

/-! ## Opening a panel -/

/-- A forest with routes opens on one of them. -/
theorem onFirst_eq (nonempty : f.paths ≠ []) : ∃ route ∈ f.paths, onFirst f = .ok ⟨f, route⟩ := by
  obtain ⟨route, others, first⟩ := List.exists_cons_of_ne_nil nonempty
  refine ⟨route, first ▸ List.mem_cons_self, ?_⟩
  rw [onFirst, Forest.first?, first]
  rfl

/-- Without a choice, the first route is opened. -/
theorem first?_of_onFirst (opened : onFirst f = .ok p) : f.first? = some p.current := by
  unfold onFirst at opened
  split at opened
  · next route first =>
    cases opened
    exact first
  · cases opened

/-- A panel opens on the routes of its forest. -/
theorem onRoute_some (nonempty : f.paths ≠ []) (route : String) : onRoute f (some route) =
    if route ∈ f.paths then .ok ⟨f, route⟩ else .error (.unknownRoute route) := by
  obtain ⟨first, -, opened⟩ := onFirst_eq nonempty
  exact (congrArg (· >>= (select · route)) opened).trans (handle_changeRoute ⟨f, first⟩ route)

/-- A panel that was opened shows its forest. -/
theorem shows_of_onRoute (nonempty : f.paths ≠ []) {route? : Option String}
    (opened : onRoute f route? = .ok p) : Shows f p := by
  cases route? with
  | none =>
    obtain ⟨first, listed, opens⟩ := onFirst_eq nonempty
    cases opens.symm.trans opened
    exact ⟨rfl, listed⟩
  | some route =>
    rw [onRoute_some nonempty] at opened
    split at opened
    · next listed =>
      cases opened
      exact ⟨rfl, listed⟩
    · cases opened

/-- Changing to a route is opening a panel on it, whatever route is shown. -/
theorem Shows.handle_eq_onRoute (shows : Shows f p) (route : String) :
    p.handle (.changeRoute route) = onRoute f (some route) := by
  have nonempty : f.paths ≠ [] := List.ne_nil_of_mem shows.listed
  obtain ⟨forest, listed⟩ := shows
  rw [handle_changeRoute, onRoute_some nonempty, ← forest]

/-! ## Documents -/

/-- The chosen option of a document is that of the current route. -/
theorem Shows.chosen_document (shows : Shows f p) (distinct : f.paths.Nodup) :
    chosen p.document = [p.current] := by
  have once : f.paths.count p.current = 1 := List.count_eq_one_of_mem distinct shows.listed
  rw [document, chosen_page, shows.forest, List.filter_eq, once]
  rfl

/-- A document shows the error of its route if it holds no tree. -/
theorem Shows.occurrences_error (shows : Shows f p) :
    occurrences "class=\"error\"" p.document =
      if embedded? p.document = some "null" then 1 else 0 := by
  have noTree : embedded? p.document = some "null" ↔ (p.forest.failure? p.current).isSome := by
    rw [document, embedded?_page, Option.some_inj, treeData_eq_null_iff, Option.map_eq_none_iff]
    exact Forest.tree?_eq_none_iff (shows.forest ▸ shows.listed)
  rw [document, occurrences_error_page, ← document]
  exact (if_congr noTree rfl rfl).symm

/-! ## All runs -/

/-- Behind any messages, a panel on the forest of a project shows a route of it; it answers the next one
as a panel that is opened on the route that is asked for, and forgets it if there is no such route. In its
document one option is chosen, that of the route, and there is an error if there is no tree. -/
theorem runs_of_ofProject {d : Disk} {project : Project} (built : Forest.ofProject d project = .ok f) :
    (∃ start, onRoute f none = .ok start) ∧
      (∀ route, (∃ start, onRoute f (some route) = .ok start) ↔ route ∈ f.paths) ∧
      ∀ route? start, onRoute f route? = .ok start → ∀ ms,
        (start.after ms).current ∈ f.paths ∧
        (∀ route, (∃ why, (start.after ms).reply (.changeRoute route) = .error why) ↔
          route ∉ f.paths) ∧
        (∀ route, route ∉ f.paths → ∀ later,
          start.after (ms ++ .changeRoute route :: later) = start.after (ms ++ later)) ∧
        (∀ route, route ∈ f.paths → ∃ opened, onRoute f (some route) = .ok opened ∧
          (start.after ms).reply (.changeRoute route) = .ok opened.document) ∧
        chosen (start.after ms).document = [(start.after ms).current] ∧
        occurrences " selected>" (start.after ms).document = 1 ∧
        occurrences "class=\"error\"" (start.after ms).document =
          if embedded? (start.after ms).document = some "null" then 1 else 0 := by
  have nonempty := Forest.paths_ne_nil built
  have distinct := Forest.nodup_paths built
  refine ⟨?_, fun route => ?_, fun route? start opened ms => ?_⟩
  · obtain ⟨first, -, opened⟩ := onFirst_eq nonempty
    exact ⟨⟨f, first⟩, opened⟩
  · rw [onRoute_some nonempty]
    split <;> simp [*]
  · -- whatever has been asked for, the panel shows a route of the forest
    have shows := (shows_of_onRoute nonempty opened).after ms
    refine ⟨shows.listed, fun route => ?_, fun route unlisted later => ?_, fun route listed => ?_, ?_,
      ?_, shows.occurrences_error⟩
    · rw [reply, shows.handle_eq_onRoute, onRoute_some nonempty]
      split <;> simp [*, Except.map]
    · exact (shows_of_onRoute nonempty opened).after_refused unlisted ms later
    · refine ⟨⟨f, route⟩, ?_, ?_⟩
      · rw [onRoute_some nonempty, if_pos listed]
      · rw [reply, shows.handle_eq_onRoute, onRoute_some nonempty, if_pos listed]
        rfl
    · exact shows.chosen_document distinct
    · rw [document, occurrences_selected_page, shows.forest]
      exact List.count_eq_one_of_mem distinct shows.listed

/-- On the sample a refused message leaves no trace, and one that names the route is answered as the opening
was. -/
theorem runs_of_ofProject_sample :
    ∃ f start, Forest.ofProject .sample ⟨⟨"/"⟩, ⟨"/"⟩, ⟨[]⟩⟩ = .ok f ∧ f.paths = ["/"] ∧
      onRoute f none = .ok start ∧ start.after [.changeRoute "/none/"] = start ∧
      (∃ opened, onRoute f (some "/") = .ok opened ∧
        start.reply (.changeRoute "/") = .ok opened.document) ∧
      chosen start.document = [start.current] := by
  obtain ⟨f, built⟩ : ∃ f, Forest.ofProject .sample ⟨⟨"/"⟩, ⟨"/"⟩, ⟨[]⟩⟩ = .ok f := by
    rw [Forest.ofProject, RouteSet.ofDisk_sample]
    exact ⟨_, rfl⟩
  have paths : f.paths = ["/"] := by
    obtain ⟨routes, found, -, same⟩ := Forest.routes_of_ofProject built
    cases RouteSet.ofDisk_sample.symm.trans found
    rw [Forest.paths, same]
    rfl
  obtain ⟨⟨start, opened⟩, -, runs⟩ := runs_of_ofProject built
  obtain ⟨-, -, refused, answered, shown, -⟩ := runs none start opened []
  have unlisted : "/none/" ∉ f.paths := by rw [paths]; decide
  have listed : "/" ∈ f.paths := by rw [paths]; decide
  exact ⟨f, start, built, paths, opened, refused _ unlisted [], answered _ listed, shown⟩

end RouteTrees.Panel
