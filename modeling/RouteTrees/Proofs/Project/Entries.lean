import RouteTrees.Project.Entries
import RouteTrees.Project.Sources
import RouteTrees.Proofs.Disk.Walk
import RouteTrees.Proofs.Path.Order

/-!
# What is made of a walk

The index of a project and the entries of its routes are made of the files that are met on a walk, so on a
well-formed disk they hold canonical names of files. The routes are in strict order whatever is met.
-/

namespace RouteTrees

/-- The source files of a project are files that were met. -/
theorem Disk.leadsTo_of_mem_sources {d : Disk} (wellFormed : d.WellFormed) {root p : Path}
    (mem : p ∈ d.sources root) : d.LeadsTo p .file := by
  obtain ⟨e, chosen, rfl⟩ := List.mem_map.mp (List.mem_mergeSort.mp mem)
  obtain ⟨met, isSource⟩ := List.mem_filter.mp chosen
  have isFile := of_decide_eq_true (Bool.and_eq_true_iff.mp isSource).1
  rw [walkable] at met
  split at met
  · next entries walked =>
    exact isFile ▸ leadsTo_of_mem_walk wellFormed walked met (isFile ▸ EntryKind.noConfusion)
  · cases met

/-- The index holds canonical files only. -/
theorem FileIndex.isCanonicalFile_of_mem_ofDisk {d : Disk} (wellFormed : d.WellFormed) {root p : Path}
    (mem : p ∈ (FileIndex.ofDisk d root).files) : d.IsCanonicalFile p := by
  have sorted := Path.mem_of_mem_dropRepeats mem
  obtain ⟨source, listed, rfl⟩ := List.mem_map.mp (List.mem_mergeSort.mp sorted)
  exact (Disk.leadsTo_of_mem_sources wellFormed listed).isCanonicalFile

namespace RouteSet

/-- After an insertion a route is an old one or the new one. -/
theorem mem_of_mem_insertInto {route : String} {entry : Path} {routes : List Route} {r : Route}
    (mem : r ∈ insertInto route entry routes) : r ∈ routes ∨ r = ⟨route, entry⟩ := by
  induction routes with
  | nil => exact .inr (List.mem_singleton.mp mem ▸ rfl)
  | cons first rest ih =>
    rw [insertInto] at mem
    split at mem
    · rcases List.mem_cons.mp mem with rfl | old
      · split
        · exact .inl List.mem_cons_self
        · exact .inr rfl
      · exact .inl (List.mem_cons_of_mem _ old)
    · split at mem
      · rcases List.mem_cons.mp mem with rfl | later
        · exact .inl List.mem_cons_self
        · exact (ih later).imp_left (List.mem_cons_of_mem _)
      · rcases List.mem_cons.mp mem with rfl | old
        · exact .inr rfl
        · exact .inl old

/-- Whether routes are in strict order. -/
def Ordered (routes : List Route) : Prop := routes.Pairwise fun r q => r.route < q.route

/-- An insertion keeps routes in order. -/
theorem Ordered.insertInto {routes : List Route} (ordered : Ordered routes) (route : String)
    (entry : Path) : Ordered (insertInto route entry routes) := by
  induction routes with
  | nil => exact List.pairwise_singleton _ _
  | cons first rest ih =>
    obtain ⟨behind, others⟩ := List.pairwise_cons.mp ordered
    rw [RouteSet.insertInto]
    split
    · next same =>
      refine List.pairwise_cons.mpr ⟨fun r mem => ?_, others⟩
      split
      · exact behind r mem
      · exact same ▸ behind r mem
    · next differ =>
      split
      · next before =>
        refine List.pairwise_cons.mpr ⟨fun r mem => ?_, ih others⟩
        rcases mem_of_mem_insertInto mem with old | new
        · exact behind r old
        · exact new ▸ before
      · next notBefore =>
        have after : route < first.route :=
          Std.lt_of_le_of_ne (String.not_lt.mp notBefore) (Ne.symm differ)
        refine List.pairwise_cons.mpr ⟨?_, ordered⟩
        exact List.forall_mem_cons.mpr ⟨after, fun r mem => String.lt_trans after (behind r mem)⟩

/-- A route of an ordered list is found by its name. -/
theorem Ordered.find?_eq {routes : List Route} (ordered : Ordered routes) {r : Route}
    (mem : r ∈ routes) : (routes.find? fun q => q.route = r.route) = some r := by
  induction routes with
  | nil => cases mem
  | cons first rest ih =>
    obtain ⟨behind, others⟩ := List.pairwise_cons.mp ordered
    rcases List.mem_cons.mp mem with rfl | later
    · exact List.find?_cons_of_pos (decide_eq_true rfl)
    · have differ := decide_eq_false (String.ne_of_lt (behind r later))
      simp only [List.find?_cons, differ]
      exact ih others later

/-- What holds of the empty set and is kept by putting in what was met holds of the routes of a project. -/
theorem of_ofDisk {d : Disk} {routingRoot : Path} {routes : RouteSet} (Holds : RouteSet → Prop)
    (found : ofDisk d routingRoot = .ok routes) (begins : Holds empty)
    (step : ∀ entries e, d.walk routingRoot = .ok entries → e ∈ entries → e.kind = .file →
      ∀ routes route, Holds routes → Holds (routes.insert route (d.canonical e.path))) :
    Holds routes := by
  rw [ofDisk] at found
  cases walked : d.walk routingRoot with
  | error e =>
    rw [walked] at found
    cases found
  | ok entries =>
    rw [walked] at found
    cases found
    refine List.foldlRecOn entries (insertEntry d routingRoot) begins fun routes holds e met => ?_
    rw [insertEntry]
    split
    · next entry =>
      have isFile := of_decide_eq_true (Bool.and_eq_true_iff.mp entry).1
      split
      · next relative _ => exact step entries e walked met isFile routes _ holds
      · exact holds
    · exact holds

/-- The routes that are found are in order. -/
theorem ordered_of_ofDisk {d : Disk} {routingRoot : Path} {routes : RouteSet}
    (found : ofDisk d routingRoot = .ok routes) : Ordered routes.routes :=
  of_ofDisk (fun routes => Ordered routes.routes) found List.Pairwise.nil
    fun _ _ _ _ _ _ route ordered => ordered.insertInto route _

/-- The entries of the routes that are found are canonical files. -/
theorem isCanonicalFile_of_mem_ofDisk {d : Disk} (wellFormed : d.WellFormed) {routingRoot : Path}
    {routes : RouteSet} (found : ofDisk d routingRoot = .ok routes) {r : Route}
    (mem : r ∈ routes.routes) : d.IsCanonicalFile r.entry := by
  refine of_ofDisk (fun routes => ∀ r ∈ routes.routes, d.IsCanonicalFile r.entry) found
    (fun _ none => (nomatch none)) ?_ r mem
  intro entries e walked met isFile routes route all r mem
  rcases mem_of_mem_insertInto mem with old | new
  · exact all r old
  · have leads := Disk.leadsTo_of_mem_walk wellFormed walked met (isFile ▸ Disk.EntryKind.noConfusion)
    exact new ▸ (isFile ▸ leads).isCanonicalFile

end RouteSet

end RouteTrees
