import RouteTrees.Project.Settings

/-!
# Settings behind a refusal

If no project is found, the settings stay as they are but for the root, which is gone. So they are as before
exactly where no root was given, and whatever root was given, the next attempt looks in the current directory.
-/

namespace RouteTrees

namespace Settings

/-- The settings behind attempts to load the project from some disks, one after the other. -/
def loadEach (s : Settings) : List Disk → Settings
  | [] => s
  | d :: ds => loadEach (s.load d).2 ds

/-- Whether all of these attempts are refused. -/
def AllRefused (s : Settings) : List Disk → Prop
  | [] => True
  | d :: ds => (s.load d).1.isSome = true ∧ AllRefused (s.load d).2 ds

variable {s : Settings} {d : Disk}

/-- Whatever the reason for a refusal, the root is gone and all else is kept. -/
theorem load_of_refused {e : ProbeError} (refused : (s.load d).1 = some e) :
    (s.load d).2 = { s with root := none } := by
  unfold load at refused ⊢
  generalize Project.probe d (s.directory d) s.framework s.routingName = found at refused ⊢
  cases found with
  | ok p => cases refused
  | error e => rfl

/-- Settings without a root are left as they are when the root is taken away. -/
theorem root_none_eq_self_iff : ({ s with root := none } : Settings) = s ↔ s.root = none := by
  constructor
  · intro same
    rw [← same]
  · intro none
    cases s
    cases none
    rfl

/-- However often an attempt is refused, what is left is what one refusal leaves. -/
theorem loadEach_of_refused {ds : List Disk} (refused : s.AllRefused ds) (ne : ds ≠ []) :
    s.loadEach ds = { s with root := none } := by
  induction ds generalizing s with
  | nil => exact absurd rfl ne
  | cons d ds ih =>
    have ⟨first, later⟩ : (s.load d).1.isSome = true ∧ AllRefused (s.load d).2 ds := refused
    obtain ⟨e, why⟩ := Option.isSome_iff_exists.mp first
    have left := load_of_refused why
    rw [left] at later
    show (s.load d).2.loadEach ds = _
    by_cases last : ds = []
    · subst last
      exact left
    · rw [left, ih later last]

theorem directory_of_root_none (none : s.root = none) : s.directory d = d.canonical d.current.toPath := by
  rw [directory, none, Option.getD_none]

/-- If the project is refused, the settings are as before exactly where no root had been given: the root is
gone, and framework, routing name and a project that was found earlier are kept. Behind any refusals, the
first or a later one, the next attempt looks in the current directory of its disk. -/
theorem load_refused (s : Settings) :
    (∀ d e, (s.load d).1 = some e → (s.load d).2 = { s with root := none } ∧
      ((s.load d).2 = s ↔ s.root = none)) ∧
    ∀ ds, s.AllRefused ds → ds ≠ [] → s.loadEach ds = { s with root := none } ∧
      ∀ d, (s.loadEach ds).directory d = d.canonical d.current.toPath := by
  constructor
  · intro d e refused
    rw [load_of_refused refused]
    exact ⟨rfl, root_none_eq_self_iff⟩
  · intro ds refused ne
    rw [loadEach_of_refused refused ne]
    exact ⟨rfl, fun d => directory_of_root_none rfl⟩

/-- Without a manifest a probe is refused. -/
theorem load_of_manifest?_none (none : d.manifest? (s.directory d) = none) :
    (s.load d).1 = some (.noManifest (s.directory d)) := by
  have probed : Project.probe d (s.directory d) s.framework s.routingName =
      .error (.noManifest (s.directory d)) := by
    rw [Project.probe, Project.checkFramework, none]
    rfl
  unfold load
  rw [probed]

/-! ## A disk without any file -/

/-- A directory, and nothing in it. -/
def bareSample : Disk := ⟨.dir [("p", .dir [])], []⟩

/-- On the bare disk nothing can be read. -/
theorem read_bareSample (p : Path) : ∃ e, bareSample.read p = .error e := by
  have noFile : ∀ place content, bareSample.root.at? place ≠ some (.file content) := by
    intro place content found
    have mem : place ∈ bareSample.root.files := Node.mem_files_of_at? found
    cases mem
  unfold Disk.read
  generalize bareSample.locate true p = located
  cases located with
  | error e => exact ⟨e, rfl⟩
  | ok place =>
    specialize noFile place
    dsimp only
    generalize bareSample.root.at? place = found at noFile
    match found with
    | none => exact ⟨_, rfl⟩
    | some (.file content) => exact absurd rfl (noFile content)
    | some (.link _) => exact ⟨_, rfl⟩
    | some (.dir _) => exact ⟨_, rfl⟩

/-- The bare disk has no manifest. -/
theorem manifest?_bareSample (p : Path) : bareSample.manifest? p = none := by
  obtain ⟨e, failed⟩ := read_bareSample (p.join ⟨"package.json"⟩)
  rw [Disk.manifest?, Disk.readText, failed]

/-- The bare disk is refused whatever the settings are. -/
theorem load_bareSample (s : Settings) :
    (s.load bareSample).1 = some (.noManifest (s.directory bareSample)) :=
  load_of_manifest?_none (manifest?_bareSample _)

/-- Any settings are refused twice on the bare disk. -/
theorem allRefused_bareSample (s : Settings) : s.AllRefused [bareSample, bareSample] :=
  ⟨Option.isSome_iff_exists.mpr ⟨_, load_bareSample s⟩,
    Option.isSome_iff_exists.mpr ⟨_, load_bareSample _⟩, trivial⟩

/-- On the bare disk settings without a root stay as they are, and settings with one lose it. -/
theorem load_refused_sample :
    ((({} : Settings).load bareSample).1 = some (.noManifest (({} : Settings).directory bareSample)) ∧
      (({} : Settings).load bareSample).2 = {}) ∧
    (Settings.AllRefused { root := some ⟨"/p"⟩ } [bareSample, bareSample] ∧
      Settings.loadEach { root := some ⟨"/p"⟩ } [bareSample, bareSample] = {}) :=
  ⟨⟨load_bareSample {}, ((load_refused {}).1 _ _ (load_bareSample {})).2.mpr rfl⟩,
    ⟨allRefused_bareSample _,
      ((load_refused { root := some ⟨"/p"⟩ }).2 _ (allRefused_bareSample _) (List.cons_ne_nil _ _)).1⟩⟩

/-- A root that was given is forgotten when the project is refused. -/
theorem load_forgets_root :
    (({ root := some ⟨"/p"⟩ } : Settings).load bareSample).1.isSome = true ∧
      (({ root := some ⟨"/p"⟩ } : Settings).load bareSample).2.root = none := by
  have refused := load_bareSample { root := some ⟨"/p"⟩ }
  constructor
  · rw [refused]
    exact Option.isSome_some
  · rw [load_of_refused refused]

end Settings

end RouteTrees
