import Mathlib.Logic.Relation
import RouteTrees.Tree.Cache

/-!
# Sharing what has been read

What a program answers if no cache ever helps it is its answer `alone`. A program `Reads` from a disk if
it asks the cache only for files of a set and remembers only what is on the disk, and if being told what
is on the disk changes nothing. Such a program keeps a truthful cache truthful with every step, and its
answer is the one alone, whatever others add to the cache between its steps. Which files it leaves in the
cache is fixed as well: those that it needs.

The set of files has to be given because a cache takes paths that say the same for one file.
-/

namespace RouteTrees

open Script (Module)

/-! ## Paths that say the same -/

namespace Path

theorem same_iff {p q : Path} : p.same q = true ↔ p.components = q.components := decide_eq_true_iff

@[simp] theorem same_refl (p : Path) : p.same p = true := decide_eq_true rfl

theorem same_comm (p q : Path) : p.same q = q.same p := decide_eq_decide.mpr eq_comm

/-- Of two paths that say the same, one says the same as a third if the other does. -/
theorem same_congr {p q : Path} (same : p.same q = true) (r : Path) : r.same p = r.same q := by
  rw [Path.same, Path.same, same_iff.mp same]

/-- Whether paths of a set that say the same are the same. -/
def Distinct (files : Path → Prop) : Prop := ∀ p q, files p → files q → p.same q = true → p = q

end Path

/-! ## Caches -/

namespace ModuleCache

variable {c : ModuleCache} {d : Disk} {files : Path → Prop} {file other : Path} {m : Module}

/-- The files of a cache. -/
def keys (c : ModuleCache) : List Path := c.entries.map (·.1)

/-- Whether a cache has the module of a file. -/
def Knows (c : ModuleCache) (file : Path) : Prop := ∃ m, c.get? file = some m

/-- Whether a cache tells the truth about some files. -/
def Truthful (c : ModuleCache) (d : Disk) (files : Path → Prop) : Prop :=
  ∀ file m, files file → c.get? file = some m → d.module file = .ok m

/-- Whether a cache remembers files of a set only, each once. -/
structure Tidy (c : ModuleCache) (files : Path → Prop) : Prop where
  inside : ∀ key ∈ c.keys, files key
  once : c.keys.Nodup

@[simp] theorem length_keys (c : ModuleCache) : c.keys.length = c.size := List.length_map _

/-- An empty cache says nothing untrue. -/
theorem truthful_empty (d : Disk) (files : Path → Prop) : empty.Truthful d files :=
  fun _ _ _ told => (nomatch told)

theorem not_knows_empty (file : Path) : ¬empty.Knows file := fun ⟨_, told⟩ => (nomatch told)

theorem tidy_empty (files : Path → Prop) : empty.Tidy files :=
  ⟨fun _ mem => (nomatch mem), List.nodup_nil⟩

/-- A file is known if one that says the same is remembered. -/
theorem knows_iff : c.Knows file ↔ ∃ key ∈ c.keys, key.same file = true := by
  constructor
  · rintro ⟨m, told⟩
    obtain ⟨e, found, -⟩ := Option.map_eq_some_iff.mp told
    exact ⟨e.1, List.mem_map_of_mem (List.mem_of_find?_eq_some found),
      List.find?_some (p := fun e : Path × Module => e.1.same file) found⟩
  · rintro ⟨key, mem, same⟩
    obtain ⟨e, listed, rfl⟩ := List.mem_map.mp mem
    have found : (c.entries.find? fun e => e.1.same file).isSome = true :=
      List.find?_isSome.mpr ⟨e, listed, same⟩
    obtain ⟨first, found⟩ := Option.isSome_iff_exists.mp found
    exact ⟨first.2, by rw [get?, found, Option.map_some]⟩

/-- What a cache tells of a file after another has been remembered anew. -/
theorem get?_map (c : ModuleCache) (file other : Path) (m : Module) :
    get? ⟨c.entries.map fun e => if e.1.same file then (e.1, m) else e⟩ other =
      (c.entries.find? fun e => e.1.same other).map fun e => if e.1.same file then m else e.2 := by
  have keep : ((fun e : Path × Module => e.1.same other) ∘
      fun e : Path × Module => if e.1.same file then (e.1, m) else e) =
        fun e => e.1.same other := by
    funext e
    rw [Function.comp_apply]
    split <;> rfl
  rw [get?, List.find?_map, keep, Option.map_map]
  congr 1
  funext e
  rw [Function.comp_apply]
  split <;> rfl

/-- A module that was put into a cache is found under each spelling of its file. -/
theorem get?_insert_same (same : file.same other = true) :
    (c.insert file m).get? other = some m := by
  rw [insert]
  split
  · next known =>
    obtain ⟨old, told⟩ := Option.isSome_iff_exists.mp known
    obtain ⟨e, found, -⟩ := Option.map_eq_some_iff.mp told
    have first := List.find?_some (p := fun e : Path × Module => e.1.same file) found
    rw [get?_map]
    simp only [← Path.same_congr same, found, Option.map_some, first, if_true]
  · simp only [get?, List.find?_cons, same, Option.map_some]

/-- A module that was put into a cache changes nothing for other files. -/
theorem get?_insert_other (differ : file.same other = false) :
    (c.insert file m).get? other = c.get? other := by
  rw [insert]
  split
  · rw [get?_map, get?]
    cases found : c.entries.find? fun e => e.1.same other with
    | none => rfl
    | some e =>
      have first := List.find?_some (p := fun e : Path × Module => e.1.same other) found
      have ne : ¬e.1.same file = true := by
        intro same
        rw [← Path.same_congr first, Path.same_comm, same] at differ
        cases differ
      rw [Option.map_some, Option.map_some, if_neg ne]
  · simp only [get?, List.find?_cons, differ]

/-- A cache stays truthful if what is put into it was read. -/
theorem Truthful.insert (truthful : c.Truthful d files) (distinct : Path.Distinct files)
    (asked : files file) (readable : d.module file = .ok m) :
    (c.insert file m).Truthful d files := by
  intro other m' asked' told
  cases same : file.same other with
  | true =>
    rw [get?_insert_same same] at told
    cases told
    exact distinct file other asked asked' same ▸ readable
  | false =>
    rw [get?_insert_other same] at told
    exact truthful other m' asked' told

/-- A cache knows a file if it was put in or known before. -/
theorem knows_insert (distinct : Path.Distinct files) (asked : files file) (asked' : files other) :
    (c.insert file m).Knows other ↔ file = other ∨ c.Knows other := by
  cases same : file.same other with
  | true =>
    have eq := distinct file other asked asked' same
    exact ⟨fun _ => .inl eq, fun _ => ⟨m, get?_insert_same same⟩⟩
  | false =>
    have ne : file ≠ other := by
      rintro rfl
      rw [Path.same_refl] at same
      cases same
    rw [Knows, get?_insert_other same]
    exact ⟨.inr, fun known => known.resolve_left ne⟩

/-- A file is put into a cache once. -/
theorem keys_insert (c : ModuleCache) (file : Path) (m : Module) :
    (c.insert file m).keys = if (c.get? file).isSome then c.keys else file :: c.keys := by
  rw [insert]
  split
  · rw [keys, List.map_map, keys]
    refine List.map_congr_left fun e _ => ?_
    rw [Function.comp_apply]
    split <;> rfl
  · rfl

/-- A cache stays tidy. -/
theorem Tidy.insert (tidy : c.Tidy files) (asked : files file) : (c.insert file m).Tidy files := by
  have all := keys_insert c file m
  split at all
  · exact ⟨all ▸ tidy.inside, all ▸ tidy.once⟩
  · next unknown =>
    have new : file ∉ c.keys := by
      intro mem
      obtain ⟨m', told⟩ := knows_iff.mpr ⟨file, mem, Path.same_refl file⟩
      exact unknown (Option.isSome_iff_exists.mpr ⟨m', told⟩)
    refine ⟨?_, ?_⟩
    · rw [all]
      exact List.forall_mem_cons.mpr ⟨asked, tidy.inside⟩
    · rw [all]
      exact List.nodup_cons.mpr ⟨new, tidy.once⟩

/-- A tidy cache knows the files that it holds. -/
theorem Tidy.knows_iff (tidy : c.Tidy files) (distinct : Path.Distinct files) (asked : files file) :
    c.Knows file ↔ file ∈ c.keys := by
  rw [ModuleCache.knows_iff]
  constructor
  · rintro ⟨key, mem, same⟩
    exact distinct key file (tidy.inside key mem) asked same ▸ mem
  · exact fun mem => ⟨file, mem, Path.same_refl file⟩

end ModuleCache

/-! ## Programs -/

namespace Build

variable {α β : Type}

/-- What a program answers if no cache ever helps it. -/
def alone : Build α → Except BuildError α
  | done a => .ok a
  | failed e => .error e
  | lookUp _ next => (next none).alone
  | remember _ _ next => next.alone

/-- One access of a program to a cache, which no other access can come between. -/
inductive Step : Build α × ModuleCache → Build α × ModuleCache → Prop where
  | lookUp (file : Path) (next : Option Module → Build α) (c : ModuleCache) :
      Step (.lookUp file next, c) (next (c.get? file), c)
  | remember (file : Path) (m : Module) (next : Build α) (c : ModuleCache) :
      Step (.remember file m next, c) (next, c.insert file m)

/-- The build that has come to an answer. -/
def answer : Except BuildError α → Build α
  | .ok a => done a
  | .error e => failed e

/-- The files that are remembered once a program has come to its answer, whether by itself or by
others. -/
def needs (d : Disk) : Build α → List Path
  | done _ => []
  | failed _ => []
  | lookUp file next =>
    match d.module file with
    | .ok m => file :: (next (some m)).needs d
    | .error _ => (next none).needs d
  | remember file _ next => file :: next.needs d

/-- Whether a program only reads from a disk what is in the given files: it asks for nothing else, it
remembers only what is there, and being told what is there makes no difference. -/
inductive Reads (d : Disk) (files : Path → Prop) : Build α → Prop where
  | done (a : α) : Reads d files (.done a)
  | failed (e : BuildError) : Reads d files (.failed e)
  | known {file next m} (asked : files file) (readable : d.module file = .ok m)
      (answers : (next none).alone = (next (some m)).alone)
      (adds : (next none).needs d = file :: (next (some m)).needs d)
      (told : Reads d files (next (some m))) (untold : Reads d files (next none)) :
      Reads d files (.lookUp file next)
  | missing {file next e} (asked : files file) (unreadable : d.module file = .error e)
      (untold : Reads d files (next none)) : Reads d files (.lookUp file next)
  | remember {file m next} (asked : files file) (readable : d.module file = .ok m)
      (rest : Reads d files next) : Reads d files (.remember file m next)

variable {d : Disk} {files : Path → Prop} {file : Path} {b b' : Build α} {c c' : ModuleCache}
  {f : Module → Build α}

@[simp] theorem alone_answer (result : Except BuildError α) : (answer result).alone = result := by
  cases result <;> rfl

@[simp] theorem needs_answer (d : Disk) (result : Except BuildError α) :
    (answer result).needs d = [] := by
  cases result <;> rfl

/-- A program that goes on with a file goes on with its module. -/
theorem alone_recall_bind (d : Disk) (file : Path) (f : Module → Build α) :
    ((d.recall file).bind f).alone =
      match d.module file with
      | .ok m => (f m).alone
      | .error e => .error (.module e) := by
  rw [Disk.recall, bind, alone]
  cases d.module file <;> rfl

/-- Such a program needs the file and what it needs after that, or nothing if the file gives no module. -/
theorem needs_recall_bind (d : Disk) (file : Path) (f : Module → Build α) :
    ((d.recall file).bind f).needs d =
      match d.module file with
      | .ok m => file :: (f m).needs d
      | .error _ => [] := by
  rw [Disk.recall, bind, needs]
  cases d.module file <;> rfl

namespace Reads

/-- A program that goes on with a file reads if it does so with the module that is there. -/
theorem recall_bind (asked : files file)
    (next : ∀ m, d.module file = .ok m → (f m).Reads d files) :
    ((d.recall file).bind f).Reads d files := by
  rw [Disk.recall, bind]
  cases read : d.module file with
  | ok m => exact .known asked read rfl rfl (next m read) (.remember asked read (next m read))
  | error e => exact .missing asked read (.failed _)

/-- What a program that reads from some files needs is among them. -/
theorem of_mem_needs (reads : b.Reads d files) (mem : file ∈ b.needs d) : files file := by
  induction reads with
  | done | failed => cases mem
  | known asked readable _ _ _ _ told _ =>
    rw [needs, readable] at mem
    rcases List.mem_cons.mp mem with rfl | later
    · exact asked
    · exact told later
  | missing _ unreadable _ untold =>
    rw [needs, unreadable] at mem
    exact untold mem
  | remember asked _ _ rest =>
    rcases List.mem_cons.mp mem with rfl | later
    · exact asked
    · exact rest later

/-- What an access leaves as it was: the answer, that the cache is truthful and tidy, and which files are
remembered in the end. -/
theorem step (reads : b.Reads d files) (distinct : Path.Distinct files)
    (truthful : c.Truthful d files) (step : Step (b, c) (b', c')) :
    b'.Reads d files ∧ b'.alone = b.alone ∧ c'.Truthful d files ∧
      (c.Tidy files → c'.Tidy files) ∧
      ∀ file, files file →
        (c'.Knows file ∨ file ∈ b'.needs d ↔ c.Knows file ∨ file ∈ b.needs d) := by
  cases step with
  | lookUp file next =>
    cases told : c.get? file with
    | none =>
      cases reads with
      | known asked readable answers adds _ untold =>
        refine ⟨untold, rfl, truthful, fun tidy => tidy, fun _ _ => ?_⟩
        rw [needs, readable, adds]
      | missing asked unreadable untold =>
        refine ⟨untold, rfl, truthful, fun tidy => tidy, fun _ _ => ?_⟩
        rw [needs, unreadable]
    | some m =>
      cases reads with
      | known asked readable answers _ continued _ =>
        -- what the cache tells is what the disk would have given
        cases (truthful file m asked told).symm.trans readable
        refine ⟨continued, answers.symm, truthful, fun tidy => tidy, fun other _ => ?_⟩
        rw [needs, readable]
        simp only [List.mem_cons]
        constructor
        · exact Or.imp_right .inr
        · rintro (known | rfl | needed)
          · exact .inl known
          · exact .inl ⟨m, told⟩
          · exact .inr needed
      | missing asked unreadable _ =>
        cases (truthful file m asked told).symm.trans unreadable
  | remember file m =>
    cases reads with
    | remember asked readable rest =>
      refine ⟨rest, rfl, truthful.insert distinct asked readable, fun tidy => tidy.insert asked,
        fun other asked' => ?_⟩
      rw [ModuleCache.knows_insert distinct asked asked', needs, List.mem_cons, eq_comm, or_assoc,
        or_left_comm]

end Reads

/-- A program that runs alone takes steps until it has its answer. -/
theorem steps_run (b : Build α) (c : ModuleCache) :
    Relation.ReflTransGen Step (b, c) (answer (b.run c).1, (b.run c).2) := by
  induction b generalizing c with
  | done a => exact .refl
  | failed e => exact .refl
  | lookUp file next ih => exact .head (.lookUp file next c) (ih (c.get? file) c)
  | remember file m next ih => exact .head (.remember file m next c) (ih (c.insert file m))

/-- A program that reads answers what it does alone, whatever a truthful cache knows. It leaves the cache
truthful, with the files that it needs. -/
theorem Reads.run (reads : b.Reads d files) (distinct : Path.Distinct files)
    (truthful : c.Truthful d files) :
    (b.run c).1 = b.alone ∧ (b.run c).2.Truthful d files ∧
      (c.Tidy files → (b.run c).2.Tidy files) ∧
        ∀ file, files file → ((b.run c).2.Knows file ↔ c.Knows file ∨ file ∈ b.needs d) := by
  have all : ∀ state : Build α × ModuleCache, Relation.ReflTransGen Step (b, c) state →
      state.1.Reads d files ∧ state.1.alone = b.alone ∧ state.2.Truthful d files ∧
        (c.Tidy files → state.2.Tidy files) ∧
          ∀ file, files file →
            (state.2.Knows file ∨ file ∈ state.1.needs d ↔ c.Knows file ∨ file ∈ b.needs d) := by
    intro state steps
    induction steps with
    | refl => exact ⟨reads, rfl, truthful, fun tidy => tidy, fun _ _ => Iff.rfl⟩
    | tail _ last ih =>
      obtain ⟨reads', same, truthful', tidy, knows⟩ := ih
      obtain ⟨reads'', same', truthful'', tidy', knows'⟩ := reads'.step distinct truthful' last
      exact ⟨reads'', same'.trans same, truthful'', fun t => tidy' (tidy t),
        fun file asked => (knows' file asked).trans (knows file asked)⟩
  obtain ⟨-, same, truthful', tidy, knows⟩ := all _ (steps_run b c)
  refine ⟨(alone_answer _).symm.trans same, truthful', tidy, fun file asked => ?_⟩
  rw [← knows file asked, needs_answer]
  exact ⟨.inl, fun either => either.resolve_right List.not_mem_nil⟩

end Build

end RouteTrees
