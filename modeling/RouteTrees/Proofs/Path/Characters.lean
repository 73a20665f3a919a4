import RouteTrees.Proofs.Path.Segments

/-!
# The characters of paths

Taking a path apart into segments, leaving some of them out and putting the others together again brings in
no character but the slash.
-/

namespace RouteTrees.Path

variable {c : Char} {s : String} {ss : List String} {p q base : Path}

/-! ## Segments -/

/-- A character that none of some segments has is not in the path that they make. -/
theorem not_mem_intercalate (slash : c ≠ '/') (free : ∀ s ∈ ss, c ∉ s.toList) :
    c ∉ ("/".intercalate ss).toList := by
  induction ss with
  | nil => exact List.not_mem_nil
  | cons s rest ih =>
    have first := free s List.mem_cons_self
    have others := ih fun s mem => free s (List.mem_cons_of_mem _ mem)
    cases rest with
    | nil => rwa [String.intercalate_singleton]
    | cons next rest =>
      have between : c ∉ "/".toList := fun mem => slash (List.mem_singleton.mp mem)
      rw [String.intercalate_cons_cons, String.toList_append, String.toList_append, List.mem_append,
        List.mem_append, not_or, not_or]
      exact ⟨⟨first, between⟩, others⟩

/-! ## Outlines -/

/-- The segments of an outline are segments of its path. -/
theorem mem_segments_of_outline (mem : s ∈ p.outline.start.toList ++ p.outline.rest) : s ∈ p.segments := by
  rw [outline] at mem
  split at mem
  · exact mem
  · exact absurd mem List.not_mem_nil
  · next first rest _ segments =>
    rw [segments]
    split at mem
    · exact List.mem_cons_of_mem first mem
    · exact mem

/-- A character that no segment of an outline has is not in the path that it makes. -/
theorem not_mem_ofOutline {o : Outline} (slash : c ≠ '/')
    (free : ∀ s ∈ o.start.toList ++ o.rest, c ∉ s.toList) : c ∉ (ofOutline o).text.toList := by
  rw [ofOutline]
  split
  · have first : c ∉ "/".toList := fun mem => slash (List.mem_singleton.mp mem)
    rw [String.toList_append, List.mem_append, not_or]
    exact ⟨first, not_mem_intercalate slash fun s mem => free s (List.mem_append_right _ mem)⟩
  · exact not_mem_intercalate slash free

/-! ## What leads on from a base -/

theorem mem_of_mem_trimIdle (mem : s ∈ trimIdle ss) : s ∈ ss := by
  rw [trimIdle, List.mem_reverse] at mem
  exact List.mem_reverse.mp ((List.dropWhile_subset isIdle) mem)

/-- What is left behind some segments is the end of them all. -/
theorem dropSegments_suffix (n : Nat) (ss : List String) : dropSegments n ss <:+ ss := by
  induction ss generalizing n with
  | nil => exact List.suffix_rfl
  | cons s ss ih =>
    rw [dropSegments.eq_def]
    simp only
    split
    · exact (ih n).trans (List.suffix_cons s ss)
    · cases n with
      | zero => exact List.suffix_rfl
      | succ n => exact (ih n).trans (List.suffix_cons s ss)

/-- What a path has behind a base has only characters of the path. -/
theorem not_mem_stripBase? (slash : c ≠ '/') (free : c ∉ p.text.toList)
    (leads : p.stripBase? base = some q) : c ∉ q.text.toList := by
  have clear : ∀ s ∈ p.outline.start.toList ++ p.outline.rest, c ∉ s.toList := fun s mem inside =>
    free (mem_of_mem_segments (mem_segments_of_outline mem) inside).1
  rw [stripBase?] at leads
  split at leads
  · cases leads
  · simp only at leads
    split at leads
    · cases leads
      refine not_mem_ofOutline slash fun s mem => clear s ?_
      rcases List.mem_append.mp mem with start | rest
      · exact List.mem_append_left _ start
      · exact List.mem_append_right _ (mem_of_mem_trimIdle rest)
    · cases leads
      refine not_mem_ofOutline slash fun s mem => clear s (List.mem_append_right _ ?_)
      exact (dropSegments_suffix _ _).subset (mem_of_mem_trimIdle mem)

end RouteTrees.Path
