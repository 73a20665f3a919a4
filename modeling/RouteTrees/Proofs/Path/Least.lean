import RouteTrees.Proofs.Path.Order

/-!
# The least of some paths

A path is taken from a list by looking for one that is ahead of all others. Where paths that say different things
are never level and none is spelled twice, there is one such path in a list that is not empty, and neither the
order of the list nor repetition counts.
-/

namespace RouteTrees.Path

/-- The path of a list that is ahead of the others, the first of those that are level. -/
def least? (ahead : Path → Path → Bool) : List Path → Option Path
  | [] => none
  | p :: rest =>
    match least? ahead rest with
    | none => some p
    | some q => if ahead q p then some q else some p

/-- Whether no path is ahead of itself, and of two that say different things one is ahead of the other. -/
structure Ranks (ahead : Path → Path → Bool) : Prop where
  irrefl : ∀ p, ahead p p = false
  trans : ∀ {p q r}, ahead p q = true → ahead q r = true → ahead p r = true
  total : ∀ {p q}, p.components ≠ q.components → ahead p q = true ∨ ahead q p = true

/-- Paths are ranked by a size, if those of one size go by their own order. -/
theorem ranks_of_size {size : Path → Nat} {ahead : Path → Path → Bool}
    (means : ∀ {p q}, ahead p q = true ↔ size p < size q ∨ size p = size q ∧ p.Before q) : Ranks ahead where
  irrefl p := by
    rw [Bool.eq_false_iff, Ne, means]
    rintro (less | ⟨-, before⟩)
    · exact Nat.lt_irrefl _ less
    · exact Std.Irrefl.irrefl (r := Before) p before
  trans {p q r} first second := by
    rw [means] at *
    rcases first with less | ⟨same, before⟩
    · rcases second with less' | ⟨same', -⟩
      · exact .inl (Nat.lt_trans less less')
      · exact .inl (same' ▸ less)
    · rcases second with less' | ⟨same', before'⟩
      · exact .inl (same ▸ less')
      · exact .inr ⟨same.trans same', Std.TransCmp.lt_trans before before'⟩
  total {p q} differ := by
    rw [means, means]
    rcases Nat.lt_trichotomy (size p) (size q) with less | same | more
    · exact .inl (.inl less)
    · cases order : p.compare q with
      | lt => exact .inl (.inr ⟨same, order⟩)
      | eq => exact absurd (compare_eq_eq_iff.mp order) differ
      | gt => exact .inr (.inr ⟨same.symm, Std.OrientedCmp.gt_iff_lt.mp order⟩)
    · exact .inr (.inl more)

variable {ahead : Path → Path → Bool} {paths : List Path} {p : Path}

/-- Only among no paths is there no least one. -/
theorem least?_eq_none_iff : least? ahead paths = none ↔ paths = [] := by
  cases paths with
  | nil => simp [least?]
  | cons p rest =>
    rw [least?]
    split
    · simp
    · split <;> simp

/-- The least of some paths is one of them. -/
theorem mem_of_least? (least : least? ahead paths = some p) : p ∈ paths := by
  induction paths with
  | nil => cases least
  | cons first rest ih =>
    rw [least?] at least
    split at least
    · cases least
      exact List.mem_cons_self
    · next q found =>
      split at least
      · exact List.mem_cons_of_mem _ (ih (found.trans least))
      · cases least
        exact List.mem_cons_self

section Ranked

variable (ranks : Ranks ahead) (spelled : SpelledOnce paths)
include ranks spelled

/-- What is taken from a list is ahead of all others in it. -/
theorem ahead_of_least? (least : least? ahead paths = some p) : ∀ q ∈ paths, q ≠ p → ahead p q = true := by
  induction paths generalizing p with
  | nil => cases least
  | cons first rest ih =>
    have spelled' : SpelledOnce rest := fun a mem b mem' =>
      spelled a (List.mem_cons_of_mem _ mem) b (List.mem_cons_of_mem _ mem')
    intro q mem ne
    rw [least?] at least
    cases found : least? ahead rest with
    | none =>
      rw [found] at least
      cases least
      rw [least?_eq_none_iff.mp found, List.mem_singleton] at mem
      exact absurd mem ne
    | some r =>
      simp only [found] at least
      have later := ih spelled' found
      split at least
      · next behind =>
        cases least
        rcases List.mem_cons.mp mem with rfl | old
        · exact behind
        · exact later q old ne
      · next notBehind =>
        cases least
        have old := (List.mem_cons.mp mem).resolve_left ne
        by_cases same : r = first
        · exact same ▸ later q old (same ▸ ne)
        · -- two paths that say the same are spelled alike, so the first is either ahead or behind
          have differ : first.components ≠ r.components := by
            intro level
            have listed := List.mem_cons_of_mem first (mem_of_least? found)
            exact same (spelled first List.mem_cons_self r listed level).symm
          have before := (ranks.total differ).resolve_right notBehind
          by_cases last : q = r
          · exact last ▸ before
          · exact ranks.trans before (later q old last)

/-- What is taken from a list is the path that is ahead of all others in it. -/
theorem least?_eq_some_iff :
    least? ahead paths = some p ↔ p ∈ paths ∧ ∀ q ∈ paths, q ≠ p → ahead p q = true := by
  constructor
  · intro least
    exact ⟨mem_of_least? least, ahead_of_least? ranks spelled least⟩
  · rintro ⟨mem, first⟩
    cases least : least? ahead paths with
    | none => simp [least?_eq_none_iff.mp least] at mem
    | some r =>
      by_cases same : r = p
      · rw [same]
      · have before := ahead_of_least? ranks spelled least p mem (Ne.symm same)
        have behind := ranks.trans before (first r (mem_of_least? least) same)
        rw [ranks.irrefl] at behind
        cases behind

end Ranked

end RouteTrees.Path
