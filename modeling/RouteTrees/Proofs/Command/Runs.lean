import RouteTrees.Command.Run
import RouteTrees.Proofs.Disk.Writing
import RouteTrees.Proofs.Tree.Crew
import RouteTrees.Proofs.Tree.Routes

/-!
# What a run does

Actions are done in order, and what follows a failure is not done. A run does what is done in response to its
command, once the project is loaded.
-/

namespace RouteTrees.Command

/-! ## Actions one after the other -/

theorem isOwnOutput_eq_false_iff {file : Path} :
    isOwnOutput file = false ↔ file.components ≠ [.root, .name "dev", .name "stdout"] := by
  have own : (Path.mk "/dev/stdout").components = [.root, .name "dev", .name "stdout"] := by decide
  rw [isOwnOutput, Path.same, decide_eq_false_iff_not, own]

/-- What is written somewhere else stands on the disk. -/
theorem Stage.perform_write (s : Stage) {file : Path} (elsewhere : isOwnOutput file = false) {content : String}
    {d : Disk} (written : s.disk.write file content.toUTF8 = .ok d) (rest : List Action) :
    s.perform (.write file content :: rest) = Stage.perform { s with disk := d } rest := by
  rw [Stage.perform, elsewhere, if_neg Bool.false_ne_true, written]

/-- What follows a failure is not done. -/
theorem Stage.perform_append (s : Stage) (first second : List Action) :
    s.perform (first ++ second) = match s.perform first with
      | (t, none) => t.perform second
      | failed => failed := by
  induction first generalizing s with
  | nil => rfl
  | cons action rest ih =>
    cases action with
    | print text => exact ih _
    | write file content =>
      rw [List.cons_append, Stage.perform, Stage.perform]
      split
      · exact ih _
      · cases s.disk.write file content.toUTF8 with
        | ok d => exact ih _
        | error e => rfl
    | fail causes => rfl

/-- The text that an action prints or writes. -/
def Action.content : Action → String
  | print text => text
  | write _ content => content
  | fail _ => ""

/-- If all that is written goes to what the program prints, it is printed, and nothing changes on the disk. -/
theorem Stage.perform_own {file : Path} (own : isOwnOutput file = true) (s : Stage) {actions : List Action}
    (only : ∀ a ∈ actions, a = .print a.content ∨ a = .write file a.content) :
    s.perform actions = (⟨s.disk, s.printed ++ String.join (actions.map Action.content)⟩, none) := by
  induction actions generalizing s with
  | nil => rw [List.map_nil, String.join_nil, String.append_empty, Stage.perform]
  | cons a rest ih =>
    obtain ⟨first, later⟩ := List.forall_mem_cons.mp only
    rw [List.map_cons, String.join_cons, ← String.append_assoc]
    rcases first with print | write
    · rw [print, Stage.perform, ih _ later]
      rfl
    · rw [write, Stage.perform, if_pos own, ih _ later]
      rfl

/-! ## Runs -/

variable {d : Disk} {s : Settings} {l : Loaded}

/-- A project is loaded once it has been found and its forest has been made. -/
theorem load_eq_ok_iff : load d s = .ok l ↔ ∃ s', s.load d = (none, s') ∧
    s'.project? = .ok l.project ∧ Forest.ofProject d l.project = .ok l.forest := by
  unfold load
  generalize s.load d = found
  obtain ⟨why, s'⟩ := found
  constructor
  · intro loaded
    -- each part of loading that is refused would have been the answer
    cases why with
    | some e => cases loaded
    | none =>
      dsimp only at loaded
      cases project : s'.project? with
      | error e =>
        rw [project] at loaded
        cases loaded
      | ok p =>
        rw [project] at loaded
        dsimp only at loaded
        cases built : Forest.ofProject d p with
        | error e =>
          rw [built] at loaded
          cases loaded
        | ok f =>
          rw [built] at loaded
          dsimp only at loaded
          cases loaded
          exact ⟨s', rfl, project, built⟩
  · rintro ⟨_, same, project, built⟩
    cases same
    dsimp only
    rw [project]
    dsimp only
    rw [built]

/-- What comes of a run once everything is done, or if something fails. -/
def Run.ofPerformed (code : Nat) : Stage × Option Causes → Run
  | (s, none) => ⟨code, s.printed, "", s.disk⟩
  | (s, some causes) => ⟨1, s.printed, errorText causes, s.disk⟩

/-- A run does what is done in response to its command once the project is loaded. -/
theorem run_eq (loaded : load d s = .ok l) {c : Command} (about : c.settings = s) {colour : Bool}
    {elapsed : String} {r : Response} (responds : c.respond colour elapsed l = .ok r)
    (input : List ByteArray) : c.run d colour elapsed input =
      .ofPerformed r.code (Stage.perform { disk := d } (actions colour r input)) := by
  have response : ((load d c.settings).bind fun l => c.respond colour elapsed l) = .ok r := by
    rw [about, loaded]
    exact responds
  unfold run
  generalize ((load d c.settings).bind fun l => c.respond colour elapsed l) = found at response ⊢
  subst response
  dsimp only
  obtain ⟨stage, _ | causes⟩ := Stage.perform { disk := d } (actions colour r input)
  · rfl
  · rfl

/-- What is refused is not done, and only the reason is told. -/
theorem run_refused (loaded : load d s = .ok l) {c : Command} (about : c.settings = s) {colour : Bool}
    {elapsed : String} {causes : Causes} (refuses : c.respond colour elapsed l = .error causes)
    (input : List ByteArray) : c.run d colour elapsed input = ⟨1, "", errorText causes, d⟩ := by
  have response : ((load d c.settings).bind fun l => c.respond colour elapsed l) = .error causes := by
    rw [about, loaded]
    exact refuses
  unfold run
  generalize ((load d c.settings).bind fun l => c.respond colour elapsed l) = found at response ⊢
  subst response
  rfl

/-! ## The project with two routes -/

/-- A walk through the whole project with two routes. -/
theorem walk_root_site : ∃ name, Disk.site.walk ⟨"/"⟩ = .ok [⟨⟨"/"⟩, name, .directory, 0⟩,
    ⟨⟨"/package.json"⟩, "package.json", .file, 1⟩, ⟨⟨"/app"⟩, "app", .directory, 1⟩,
    ⟨⟨"/app/page.ts"⟩, "page.ts", .file, 2⟩, ⟨⟨"/app/menu.ts"⟩, "menu.ts", .file, 2⟩,
    ⟨⟨"/app/again"⟩, "again", .other, 2⟩, ⟨⟨"/app/broken"⟩, "broken", .directory, 2⟩,
    ⟨⟨"/app/broken/page.ts"⟩, "page.ts", .file, 3⟩, ⟨⟨"/app/broken/gone.ts"⟩, "gone.ts", .file, 3⟩] :=
  by
  have there : Disk.site.root.at? [] = some (.dir _) := rfl
  exact ⟨_, Disk.walk_toPath Disk.wellFormed_site there⟩

/-- The project of the site is found. -/
theorem probe_site : ∃ aliases, Project.probe .site ⟨"/"⟩ "next" "app" = .ok ⟨⟨"/"⟩, ⟨"/app"⟩, aliases⟩ := by
  obtain ⟨name, walked⟩ := walk_root_site
  have text : Disk.site.readText ((Path.mk "/").join ⟨"package.json"⟩) =
      .ok "\x7b\"dependencies\":\x7b\"next\":1\x7d\x7d" :=
    Disk.readText_toPath Disk.wellFormed_site ["package.json"] rfl
  have declared : (Json.ofText "\x7b\"dependencies\":\x7b\"next\":1\x7d\x7d").toOption.map
      (Project.declares · "next") = some true := by decide +kernel
  obtain ⟨manifest, read, declares⟩ := Option.map_eq_some_iff.mp declared
  have manifest? : Disk.site.manifest? ⟨"/"⟩ = some manifest := by
    rw [Disk.manifest?, text]
    exact read
  have checked : Project.checkFramework .site ⟨"/"⟩ "next" = .ok () := by
    rw [Project.checkFramework, manifest?]
    exact if_pos declares
  have found : Project.findRoutingRoot .site ⟨"/"⟩ "app" = .ok ⟨"/app"⟩ := by
    rw [Project.findRoutingRoot, Disk.directoriesNamed, Disk.walkable, walked]
    rfl
  refine ⟨AliasMap.ofDisk .site ⟨"/"⟩, ?_⟩
  rw [Project.probe, checked, found]
  rfl

/-- The project with two routes is loaded from the directory where relative paths begin. -/
theorem exists_load_site : ∃ l, load .site {} = .ok l ∧ l.project.routingRoot = ⟨"/app"⟩ ∧
    l.forest.paths = ["/", "/broken/"] ∧ l.forest.filesRead = 3 := by
  have spelled : Disk.site.current.toPath = ⟨"/"⟩ := by decide
  have located : Disk.site.locate true (Place.toPath []) = .ok [] :=
    Disk.locate_toPath Disk.wellFormed_site rfl fun _ => Node.noConfusion
  have directory : Settings.directory .site {} = ⟨"/"⟩ := by
    rw [Settings.directory, Option.getD_none, spelled]
    exact Disk.canonical_of_locate located
  obtain ⟨aliases, probed⟩ := probe_site
  let p : Project := ⟨⟨"/"⟩, ⟨"/app"⟩, aliases⟩
  have settled : Settings.load .site {} = (none, { root := some ⟨"/"⟩, project := some p }) := by
    unfold Settings.load
    rw [directory]
    dsimp only
    generalize Project.probe .site ⟨"/"⟩ "next" "app" = found at probed ⊢
    subst probed
    rfl
  have forest := Forest.ofRoutes_eq (p := p) Disk.wellFormed_site RouteSet.ofDisk_site
  obtain ⟨f, built, same⟩ : ∃ f, Forest.ofProject .site p = .ok f ∧
      f = .ofRoutes .site p ⟨[.front, .broken]⟩ := by
    rw [Forest.ofProject, RouteSet.ofDisk_site]
    exact ⟨_, rfl, rfl⟩
  refine ⟨⟨p, f⟩, load_eq_ok_iff.mpr ⟨_, settled, rfl, built⟩, rfl, ?_⟩
  rw [same, forest, List.flatMap_cons, List.flatMap_singleton, (Tree.filesRead_site p).1,
    (Tree.filesRead_site p).2]
  refine ⟨rfl, ?_⟩
  dsimp only
  decide +kernel

/-- Beside the project there is room for a document. -/
theorem exists_write_site : ∃ d, Disk.site.write ⟨"/tree.html"⟩ .empty = .ok d := by
  have segments : (Path.mk "/tree.html").segments = ["tree.html"] := by decide
  have start : Disk.site.start ⟨"/tree.html"⟩ = [] := if_pos (by decide)
  have absent : Disk.site.spot true ⟨"/tree.html"⟩ = .ok (.absent ["tree.html"] false) := by
    refine Disk.spot_eq_ok_iff.mpr ⟨by decide, by decide, ?_⟩
    rw [segments, start, Disk.follow]
    rfl
  exact ⟨_, Disk.write_eq_ok_iff.mpr ⟨_, .of_absent absent, rfl⟩⟩

end RouteTrees.Command
