import Mathlib.Data.List.TakeWhile
import RouteTrees.Proofs.Path.Names

/-!
# Paths below a path

What is joined to a path stays below it, and so does what is made of its last name, as long as nothing is
joined that starts at the root or steps up. A path that has been cleaned holds no step up that could leave
it.
-/

namespace RouteTrees.Path

/-! ## Clean paths -/

theorem noSlash_of_mem_segments {p : Path} {s : String} (mem : s ∈ p.segments) : '/' ∉ s.toList :=
  fun slash => (mem_of_mem_segments mem slash).2 rfl

/-- Whether a text can stand in a clean path. -/
def IsStep (s : String) : Prop := s ≠ ".." ∧ '/' ∉ s.toList

/-- Below the root, cleaning leaves names only, and no others than those that were there. -/
theorem foldl_cleanStep {q : String → Prop} {cs : List Component}
    (steps : ∀ c ∈ cs, c = .up ∨ ∃ s, c = .name s ∧ q s) {names : List String} (clean : ∀ s ∈ names, q s) :
    ∃ names' : List String, (∀ s ∈ names', q s) ∧
      cs.foldl cleanStep (names.map .name ++ [.root]) = names'.map .name ++ [.root] := by
  induction cs generalizing names with
  | nil => exact ⟨names, clean, rfl⟩
  | cons c cs ih =>
    obtain ⟨first, others⟩ := List.forall_mem_cons.mp steps
    rw [List.foldl_cons]
    rcases first with rfl | ⟨s, rfl, step⟩
    · cases names with
      | nil => exact ih others clean
      | cons last before => exact ih others (List.forall_mem_cons.mp clean).2
    · have clean' : ∀ t ∈ s :: names, q t := List.forall_mem_cons.mpr ⟨step, clean⟩
      exact ih others clean'

/-- A clean absolute path is spelled by names. -/
theorem exists_names_of_clean {p : Path} (absolute : p.isAbsolute = true) :
    ∃ names : List String, (∀ s ∈ names, IsStep s ∧ isIdle s = false) ∧
      p.clean = ⟨"/" ++ "/".intercalate names⟩ := by
  have steps : ∀ c ∈ (p.segments.filter fun s => !isIdle s).map componentOf,
      c = .up ∨ ∃ s, c = .name s ∧ IsStep s ∧ isIdle s = false := by
    intro c mem
    obtain ⟨s, busy, rfl⟩ := List.mem_map.mp mem
    obtain ⟨listed, busy⟩ := List.mem_filter.mp busy
    by_cases up : s = ".."
    · exact .inl (if_pos up)
    · refine .inr ⟨s, if_neg up, ⟨up, noSlash_of_mem_segments listed⟩, ?_⟩
      simpa using busy
  obtain ⟨names, clean, folded⟩ := foldl_cleanStep steps (fun s (none : s ∈ []) => nomatch none)
  have reversed : (p.components.foldl cleanStep []).reverse =
      .root :: names.reverse.map .name := by
    rw [components_of_isAbsolute absolute, List.foldl_cons]
    have begun : cleanStep [] .root = ([] : List String).map .name ++ [.root] := rfl
    rw [begun, folded, List.reverse_append, List.map_reverse]
    rfl
  refine ⟨names.reverse, fun s mem => clean s (List.mem_reverse.mp mem), ?_⟩
  rw [Path.clean, reversed]
  simp only [ofComponents, List.map_cons, List.tail_cons, List.map_map]
  congr 3
  exact List.map_id _

/-- Cleaning an absolute path leaves no dots among its segments. -/
theorem noDots_of_isAbsolute {p : Path} (absolute : p.isAbsolute = true) :
    p.clean.isAbsolute = true ∧ ∀ s ∈ p.clean.segments, s ≠ "." ∧ s ≠ ".." := by
  obtain ⟨names, steps, spelled⟩ := exists_names_of_clean absolute
  rw [spelled, segments_eq, body_slash]
  refine ⟨isAbsolute_slash _, ?_⟩
  cases names with
  | nil => decide
  | cons s ss =>
    rw [split_intercalate (fun t mem => (steps t mem).1.2) (List.cons_ne_nil s ss)]
    intro t mem
    obtain ⟨⟨notUp, -⟩, busy⟩ := steps t mem
    refine ⟨?_, notUp⟩
    rintro rfl
    cases busy

/-- An absolute path that is clean has no step up among its segments. -/
theorem up_not_mem_of_clean {p : Path} (absolute : p.isAbsolute = true) (clean : p.clean = p) :
    ".." ∉ p.segments := fun mem =>
  ((noDots_of_isAbsolute absolute).2 ".." (by rwa [clean])).2 rfl

/-! ## Absolute paths -/

/-- What is joined to an absolute path is absolute. -/
theorem isAbsolute_join_of_isAbsolute {base : Path} (absolute : base.isAbsolute = true) (rel : Path) :
    (base.join rel).isAbsolute = true := by
  cases relative : rel.isAbsolute with
  | true => rwa [join, relative, Bool.true_or, if_pos rfl]
  | false =>
    have ne : base.text ≠ "" := by
      intro empty
      simp [isAbsolute, empty] at absolute
    rw [isAbsolute_join ne relative, absolute]

/-- What an absolute path calls by a name is in a directory with an absolute path. -/
theorem exists_parent? {p : Path} {name : String} (absolute : p.isAbsolute = true)
    (called : p.fileName? = some name) : ∃ directory, p.parent? = some directory ∧ directory.isAbsolute = true := by
  have outline : p.outline = ⟨true, none, p.segments⟩ := by rw [Path.outline, absolute]
  rw [parent?, outline, dropLastSegment?]
  cases busy : p.segments.reverse.dropWhile isIdle with
  | nil =>
    -- a path without names is the root, which is not called by a name
    have idle := List.dropWhile_eq_nil_iff.mp busy
    have none : (p.segments.filter fun s => !isIdle s) = [] := by
      apply List.filter_eq_nil_iff.mpr
      intro s mem
      simp [idle s (List.mem_reverse.mpr mem)]
    rw [fileName?, components_of_isAbsolute absolute, none] at called
    cases called
  | cons last before => exact ⟨_, rfl, isAbsolute_slash _⟩

/-! ## Joining -/

/-- Whether a path leads on from another, without steps up. -/
structure Extends (base p : Path) : Prop where
  absolute : p.isAbsolute = base.isAbsolute
  segments : ∃ before more, (base.segments = before ∨ base.segments = before ++ [""]) ∧
    p.segments = before ++ more ∧ more ≠ [] ∧ ".." ∉ more

variable {base p rel : Path} {extension : String}

/-- A relative path that is joined leads on, if it has no step up. -/
theorem extends_join (ne : base.text ≠ "") (relative : rel.isAbsolute = false)
    (noUp : ".." ∉ rel.segments) : base.Extends (base.join rel) := by
  obtain ⟨before, spelled, joined⟩ := segments_join ne relative
  exact ⟨isAbsolute_join ne relative, before, rel.segments, spelled, joined, rel.segments_ne_nil, noUp⟩

/-- An extension that is tried makes no segment that leads up. -/
theorem up_not_mem_addExtension (listed : extension ∈ Convention.sourceExtensions)
    (noUp : ".." ∉ p.segments) : ".." ∉ (p.addExtension extension).segments := by
  obtain ⟨-, noSlash, -⟩ := spelling_of_sourceExtension listed
  obtain ⟨before, last, segments, extended⟩ := segments_addExtension p noSlash
  rw [extended, List.mem_append, not_or, List.mem_singleton]
  refine ⟨fun mem => noUp ?_, Ne.symm (busy_of_sourceExtension listed last).2⟩
  rw [segments]
  exact List.mem_append_left _ mem

namespace Extends

/-- A path stays below a base when a relative path that leads nowhere up is joined to it. -/
theorem join (below : base.Extends p) (ne : p.text ≠ "") (relative : rel.isAbsolute = false)
    (noUp : ".." ∉ rel.segments) : base.Extends (p.join rel) := by
  obtain ⟨absolute, before, more, spelled, segments, nonempty, noUp'⟩ := below
  obtain ⟨front, last, rfl⟩ := (List.eq_nil_or_concat more).resolve_left nonempty
  rw [List.concat_eq_append] at segments noUp'
  obtain ⟨init, whole, joined⟩ := segments_join ne relative
  have ahead : ∃ kept, init = before ++ kept ∧ ".." ∉ kept := by
    rcases whole with same | slashed
    · exact ⟨front ++ [last], same.symm.trans segments, noUp'⟩
    · rw [segments, ← List.append_assoc] at slashed
      exact ⟨front, (List.append_inj_left' slashed rfl).symm,
        fun mem => noUp' (List.mem_append_left _ mem)⟩
  obtain ⟨kept, rfl, noUpKept⟩ := ahead
  refine ⟨(isAbsolute_join ne relative).trans absolute, before, kept ++ rel.segments, spelled,
    joined.trans (List.append_assoc ..), List.append_ne_nil_of_right_ne_nil _ rel.segments_ne_nil, ?_⟩
  rw [List.mem_append, not_or]
  exact ⟨noUpKept, noUp⟩

/-- The extension of a source file is added to what leads on. -/
theorem addExtension (below : base.Extends p) (listed : extension ∈ Convention.sourceExtensions) :
    base.Extends (p.addExtension extension) := by
  obtain ⟨absolute, before, more, spelled, segments, nonempty, noUp⟩ := below
  obtain ⟨front, last, rfl⟩ := (List.eq_nil_or_concat more).resolve_left nonempty
  rw [List.concat_eq_append] at segments noUp
  obtain ⟨-, noSlash, -⟩ := spelling_of_sourceExtension listed
  obtain ⟨init, last', whole, extended⟩ := segments_addExtension p noSlash
  rw [segments, ← List.append_assoc] at whole
  rw [← List.append_inj_left' whole rfl, List.append_assoc] at extended
  refine ⟨(isAbsolute_addExtension p extension).trans absolute, before, _, spelled, extended,
    List.append_ne_nil_of_right_ne_nil _ (List.cons_ne_nil _ _), ?_⟩
  rw [List.mem_append, not_or, List.mem_singleton]
  exact ⟨fun mem => noUp (List.mem_append_left _ mem), Ne.symm (busy_of_sourceExtension listed last').2⟩

/-- What leads on from an absolute path says all that the path says, and then more. -/
theorem components (below : base.Extends p) (absolute : base.isAbsolute = true) :
    base.components <+: p.components := by
  obtain ⟨same, before, more, spelled, segments, -, -⟩ := below
  have kept : (base.segments.filter fun s => !isIdle s) = before.filter fun s => !isIdle s := by
    rcases spelled with same | slashed
    · rw [same]
    · rw [slashed, List.filter_append]
      exact List.append_nil _
  rw [components_of_isAbsolute absolute, components_of_isAbsolute (same.trans absolute), kept, segments,
    List.filter_append, List.map_append, ← List.cons_append]
  exact List.prefix_append _ _

/-- If no segment of the base leads up, none of a path below it does. -/
theorem up_not_mem (below : base.Extends p) (noUp : ".." ∉ base.segments) : ".." ∉ p.segments := by
  obtain ⟨-, before, more, spelled, segments, -, noUp'⟩ := below
  rw [segments, List.mem_append, not_or]
  refine ⟨fun mem => noUp ?_, noUp'⟩
  rcases spelled with same | slashed
  · exact same ▸ mem
  · exact slashed ▸ List.mem_append_left _ mem

end Extends

end RouteTrees.Path
