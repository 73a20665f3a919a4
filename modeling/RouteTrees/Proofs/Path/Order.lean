import Mathlib.Data.List.Sort
import RouteTrees.Project.FileIndex

/-!
# The order of paths

Components are compared by their kind and then by their text, and paths as lists of components. Both are
orders in which only equal things are level, so a list of paths that ascends is known by what it holds. Sorting
paths that say different things gives such a list, and where each path is spelled in one way, nothing is lost by
dropping repeats.
-/

namespace RouteTrees.Path

/-! ## Components -/

namespace Component

/-- The text of a name. -/
def text : Component → String
  | .name s => s
  | _ => ""

theorem compare_eq (a b : Component) :
    a.compare b = (Ord.compare a.rank b.rank).then (Ord.compare a.text b.text) := by
  cases a <;> cases b <;> simp [Component.compare, rank, text, Nat.compare_eq_ite_lt]

/-- The order of components is a lexicographic one. -/
theorem compare_eq_compareLex :
    Component.compare = compareLex (compareOn rank) (compareOn text) := by
  funext a b
  exact compare_eq a b

instance : Std.TransCmp Component.compare := by
  rw [compare_eq_compareLex]
  infer_instance

/-- Components are level only if they are equal: the rank tells them apart or else the text. -/
instance : Std.LawfulEqCmp Component.compare where
  eq_of_compare {a b} level := by
    rw [compare_eq, Ordering.then_eq_eq, Std.LawfulEqCmp.compare_eq_iff_eq,
      Std.LawfulEqCmp.compare_eq_iff_eq] at level
    obtain ⟨rank, text⟩ := level
    cases a <;> cases b <;> simp_all [Component.rank, Component.text]

end Component

/-- Lists of components are compared lexicographically. -/
theorem compareComponents_eq : compareComponents = List.compareLex Component.compare := by
  funext as bs
  induction as generalizing bs with
  | nil => cases bs <;> rfl
  | cons a as ih =>
    cases bs with
    | nil => rfl
    | cons b bs => rw [compareComponents, List.compareLex_cons_cons, ih]

/-- What two lists begin with in common does not count. -/
theorem compareComponents_append (front as bs : List Component) :
    compareComponents (front ++ as) (front ++ bs) = compareComponents as bs := by
  induction front with
  | nil => rfl
  | cons c front ih =>
    have level : c.compare c = .eq := Std.ReflCmp.compare_self
    rw [List.cons_append, List.cons_append, compareComponents, level, ih, Ordering.then]

/-! ## Paths -/

/-- The order of paths is transitive. -/
instance : Std.TransCmp Path.compare where
  eq_swap {p q} := by
    rw [compare, compare, compareComponents_eq]
    exact Std.OrientedCmp.eq_swap
  isLE_trans {p q r} := by
    rw [compare, compare, compare, compareComponents_eq]
    exact Std.TransCmp.isLE_trans

/-- Paths are level if and only if they say the same. -/
theorem compare_eq_eq_iff {p q : Path} : p.compare q = .eq ↔ p.components = q.components := by
  rw [compare, compareComponents_eq]
  exact Std.LawfulEqCmp.compare_eq_iff_eq

/-- Whether a path comes before another. -/
def Before (p q : Path) : Prop := p.compare q = .lt

instance : Std.Irrefl Before where
  irrefl p := by simp [Before, compare_eq_eq_iff.mpr rfl]

/-- Of two paths at most one comes before the other. -/
instance : Std.Antisymm Before where
  antisymm p q before behind := by
    have level : p.compare p = .lt := Std.TransCmp.lt_trans before behind
    exact absurd level (Std.Irrefl.irrefl (r := Before) p)

theorem atMost_iff {p q : Path} : p.atMost q = true ↔ p.Before q ∨ p.components = q.components := by
  rw [atMost, Before, ← compare_eq_eq_iff]
  cases p.compare q <;> simp

/-- What is not behind a path that is not behind another is not behind that other. -/
theorem atMost_trans (p q r : Path) (first : p.atMost q = true) (second : q.atMost r = true) :
    p.atMost r = true := by
  simp only [atMost, decide_eq_true_eq, ← Ordering.isLE_iff_ne_gt] at *
  exact Std.TransCmp.isLE_trans first second

/-- Of two paths one is not behind the other. -/
theorem atMost_total (p q : Path) : (p.atMost q || q.atMost p) = true := by
  have swap : q.compare p = (p.compare q).swap := Std.OrientedCmp.eq_swap
  rw [atMost, atMost, swap]
  cases p.compare q <;> rfl

/-! ## Lists of paths -/

/-- Whether each path comes before those behind it. -/
def Ascending (paths : List Path) : Prop := paths.Pairwise Before

/-- A list that ascends is known by what it holds. -/
theorem Ascending.eq_of_mem_iff {paths paths' : List Path} (ascending : Ascending paths)
    (ascending' : Ascending paths') (same : ∀ p, p ∈ paths ↔ p ∈ paths') : paths = paths' :=
  List.Pairwise.eq_of_mem_iff ascending ascending' same

/-- Sorting paths that say different things makes them ascend. -/
theorem ascending_mergeSort {paths : List Path}
    (apart : paths.Pairwise fun p q => p.components ≠ q.components) :
    Ascending (paths.mergeSort atMost) := by
  have sorted := List.pairwise_mergeSort atMost_trans atMost_total paths
  have differ : (paths.mergeSort atMost).Pairwise fun p q => p.components ≠ q.components :=
    (List.mergeSort_perm paths atMost).symm.pairwise apart Ne.symm
  apply (sorted.and differ).imp
  rintro p q ⟨le, ne⟩
  exact (atMost_iff.mp le).resolve_right ne

/-- Leaving out repeated paths adds none. -/
theorem mem_of_mem_dropRepeats {paths : List Path} {p : Path} (mem : p ∈ dropRepeats paths) :
    p ∈ paths := by
  induction paths with
  | nil => exact mem
  | cons q rest ih =>
    rw [dropRepeats] at mem
    split at mem
    · exact List.mem_singleton.mp mem ▸ List.mem_cons_self
    · next kept first =>
      rw [first] at ih
      split at mem
      · rcases List.mem_cons.mp mem with rfl | old
        · exact List.mem_cons_self
        · exact List.mem_cons_of_mem _ (ih (List.mem_cons_of_mem _ old))
      · rcases List.mem_cons.mp mem with rfl | old
        · exact List.mem_cons_self
        · exact List.mem_cons_of_mem _ (ih old)

/-- Of paths that say the same, one is kept. -/
theorem exists_same_of_mem {paths : List Path} {p : Path} (mem : p ∈ paths) :
    ∃ q ∈ dropRepeats paths, p.components = q.components := by
  induction paths with
  | nil => cases mem
  | cons first rest ih =>
    have kept : ∀ q ∈ dropRepeats rest, ∃ r ∈ dropRepeats (first :: rest), q.components = r.components := by
      intro q old
      rw [dropRepeats]
      split
      · next none => simp [none] at old
      · next next kept whole =>
        rw [whole] at old
        split
        · next same =>
          rcases List.mem_cons.mp old with rfl | old
          · exact ⟨first, List.mem_cons_self, (of_decide_eq_true same).symm⟩
          · exact ⟨q, List.mem_cons_of_mem _ old, rfl⟩
        · exact ⟨q, List.mem_cons_of_mem _ old, rfl⟩
    rcases List.mem_cons.mp mem with rfl | old
    · refine ⟨p, ?_, rfl⟩
      rw [dropRepeats]
      repeat' split
      all_goals exact List.mem_cons_self
    · obtain ⟨q, old, same⟩ := ih old
      obtain ⟨r, mem, same'⟩ := kept q old
      exact ⟨r, mem, same.trans same'⟩

/-- Whether no two of some paths say the same in different spellings. -/
def SpelledOnce (paths : List Path) : Prop :=
  ∀ p ∈ paths, ∀ q ∈ paths, p.components = q.components → p = q

/-- Clean paths are spelled by what they say. -/
theorem spelledOnce_of_clean {paths : List Path} (clean : ∀ p ∈ paths, p.clean = p) :
    SpelledOnce paths := by
  intro p mem q mem' same
  rw [← clean p mem, ← clean q mem', Path.clean, Path.clean, same]

/-- Nothing is lost by sorting paths that are spelled in one way each. -/
theorem mem_sortUnique_iff {paths : List Path} {p : Path} (spelled : SpelledOnce paths) :
    p ∈ sortUnique paths ↔ p ∈ paths := by
  constructor
  · intro mem
    exact List.mem_mergeSort.mp (mem_of_mem_dropRepeats mem)
  · intro mem
    obtain ⟨q, kept, same⟩ := exists_same_of_mem (List.mem_mergeSort.mpr mem : p ∈ paths.mergeSort atMost)
    have old := List.mem_mergeSort.mp (mem_of_mem_dropRepeats kept)
    rwa [spelled p mem q old same]

end RouteTrees.Path
