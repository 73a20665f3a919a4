import RouteTrees.Path.Basic

/-!
# Segments

What the segments of a path are if the path was put together of names: a name holds no slash, so the
slashes between names are where the text comes apart again. Nothing is said here of what a path means on
a disk.
-/

namespace RouteTrees.Path

/-- A text is split at its slashes. -/
theorem split_eq (cs : List Char) : split cs = cs.splitOn '/' := by
  induction cs with
  | nil => rw [split, List.splitOn_nil]
  | cons c cs ih =>
    rw [split, List.splitOn_cons_eq_if_modifyHead, ih]
    by_cases slash : c = '/'
    · rw [if_pos slash, if_pos (beq_iff_eq.mpr slash)]
    · rw [if_neg slash, if_neg (mt beq_iff_eq.mp slash)]
      cases pieces : cs.splitOn '/' with
      | nil => exact absurd pieces (List.splitOn_ne_nil '/' cs)
      | cons s ss => rfl

/-- A text with a slash in it is split there, and on both sides of it. -/
theorem split_append_slash (before after : List Char) :
    split (before ++ '/' :: after) = split before ++ split after := by
  rw [split_eq, split_eq, split_eq, List.splitOn_append_cons_self]

/-- A text without a slash is one part. -/
theorem split_of_not_mem {cs : List Char} (free : '/' ∉ cs) : split cs = [cs] := by
  rw [split_eq, List.splitOn_eq_singleton free]

/-- Splitting takes the slashes out of a text and leaves the rest. -/
theorem flatten_split (cs : List Char) : (split cs).flatten = cs.filter (· ≠ '/') := by
  induction cs with
  | nil => rfl
  | cons c cs ih =>
    rw [split]
    by_cases slash : c = '/'
    · have dropped : ¬decide (c ≠ '/') = true := mt of_decide_eq_true (not_not_intro slash)
      rw [if_pos slash, List.filter_cons, if_neg dropped, ← ih, List.flatten_cons, List.nil_append]
    · have kept : decide (c ≠ '/') = true := decide_eq_true slash
      rw [if_neg slash, List.filter_cons, if_pos kept, ← ih]
      cases split cs <;> rfl

/-- What a part has, the whole has; and no part has a slash. -/
theorem mem_of_mem_split {cs part : List Char} {c : Char} (mem : part ∈ split cs) (inside : c ∈ part) :
    c ∈ cs ∧ c ≠ '/' := by
  have listed : c ∈ (split cs).flatten := List.mem_flatten.mpr ⟨part, mem, inside⟩
  rw [flatten_split, List.mem_filter] at listed
  exact ⟨listed.1, of_decide_eq_true listed.2⟩

/-- Names put together with slashes are split into the names. -/
theorem split_intercalate {names : List String} (free : ∀ s ∈ names, '/' ∉ s.toList)
    (ne : names ≠ []) : (split ("/".intercalate names).toList).map String.ofList = names := by
  have free' : ∀ cs ∈ names.map String.toList, '/' ∉ cs := by
    intro cs mem
    obtain ⟨s, listed, rfl⟩ := List.mem_map.mp mem
    exact free s listed
  have ne' : names.map String.toList ≠ [] := mt List.map_eq_nil_iff.mp ne
  rw [split_eq, String.toList_intercalate]
  rw [show "/".toList = ['/'] from rfl, List.splitOn_intercalate '/' free' ne', List.map_map]
  exact (List.map_congr_left fun s _ => String.ofList_toList).trans (List.map_id _)

/-- What is split of a path: its text behind the slash of the root. -/
def body (p : Path) : List Char := if p.isAbsolute then p.text.toList.tail else p.text.toList

theorem segments_eq (p : Path) : p.segments = (split p.body).map String.ofList := rfl

/-- Segments hold what a path holds, but no slash. -/
theorem mem_of_mem_segments {p : Path} {s : String} {c : Char} (mem : s ∈ p.segments)
    (inside : c ∈ s.toList) : c ∈ p.text.toList ∧ c ≠ '/' := by
  rw [segments_eq] at mem
  obtain ⟨part, listed, rfl⟩ := List.mem_map.mp mem
  rw [String.toList_ofList] at inside
  obtain ⟨here, ne⟩ := mem_of_mem_split listed inside
  refine ⟨?_, ne⟩
  rw [body] at here
  split at here
  · exact List.mem_of_mem_tail here
  · exact here

/-- There is always a segment, if only an empty one. -/
theorem segments_ne_nil (p : Path) : p.segments ≠ [] := by
  rw [segments_eq, split_eq]
  exact mt List.map_eq_nil_iff.mp (List.splitOn_ne_nil '/' p.body)

/-! ## Absolute paths -/

section Absolute

variable (s : String)

@[simp] theorem isAbsolute_slash : (Path.mk ("/" ++ s)).isAbsolute = true := by
  rw [isAbsolute, String.toList_append]
  rfl

@[simp] theorem body_slash : (Path.mk ("/" ++ s)).body = s.toList := by
  rw [body, isAbsolute_slash, if_pos rfl, String.toList_append]
  rfl

end Absolute

/-- An absolute path says its segments, without the idle ones, behind the root. -/
theorem components_of_isAbsolute {p : Path} (absolute : p.isAbsolute = true) :
    p.components = .root :: (p.segments.filter fun s => !isIdle s).map componentOf := by
  rw [components, outline, absolute]
  rfl

/-! ## Paths joined to paths -/

/-- A path without a slash is relative. -/
theorem not_isAbsolute_of_not_mem {name : String} (free : '/' ∉ name.toList) :
    (Path.mk name).isAbsolute = false := by
  rw [isAbsolute]
  cases first : name.toList with
  | nil => rfl
  | cons c cs =>
    have ne : c ≠ '/' := fun slash => free (first ▸ slash ▸ List.mem_cons_self)
    exact decide_eq_false fun same => ne (Option.some.inj same)

/-- A path without a slash is one segment. -/
theorem segments_of_not_mem {name : String} (free : '/' ∉ name.toList) :
    (Path.mk name).segments = [name] := by
  rw [segments_eq, body, not_isAbsolute_of_not_mem free, if_neg Bool.false_ne_true,
    split_of_not_mem free, List.map_singleton, String.ofList_toList]

section Join

variable {base rel : Path}

/-- What a relative path adds to the text of another: a slash before it, unless there is one. -/
theorem toList_join (ne : base.text ≠ "") (relative : rel.isAbsolute = false) :
    (base.join rel).text.toList =
      base.text.toList ++ (if base.text.toList.getLast? = some '/' then [] else ['/']) ++
        rel.text.toList := by
  rw [join, relative, Bool.false_or, if_neg (mt of_decide_eq_true ne)]
  split
  · rw [String.toList_append, List.append_nil]
  · rw [String.toList_append, String.toList_append]
    rfl

/-- A relative path joined to a base is absolute if the base is. -/
theorem isAbsolute_join (ne : base.text ≠ "") (relative : rel.isAbsolute = false) :
    (base.join rel).isAbsolute = base.isAbsolute := by
  have ne' : base.text.toList ≠ [] := mt String.toList_eq_nil_iff.mp ne
  obtain ⟨c, cs, text⟩ := List.exists_cons_of_ne_nil ne'
  rw [isAbsolute, isAbsolute, toList_join ne relative, text]
  rfl

/-- The segments of a relative path come behind those of another, in the place of the empty one at its end
if it ends in a slash. -/
theorem segments_join (ne : base.text ≠ "") (relative : rel.isAbsolute = false) :
    ∃ before, (base.segments = before ∨ base.segments = before ++ [""]) ∧
      (base.join rel).segments = before ++ rel.segments := by
  have ne' : base.text.toList ≠ [] := mt String.toList_eq_nil_iff.mp ne
  have behind : rel.segments = (split rel.text.toList).map String.ofList := by
    rw [segments_eq, body, relative, if_neg Bool.false_ne_true]
  have joined : (base.join rel).body = base.body ++
      (if base.text.toList.getLast? = some '/' then [] else ['/']) ++ rel.text.toList := by
    rw [body, body, isAbsolute_join ne relative, toList_join ne relative]
    split
    · rw [List.append_assoc, List.tail_append_of_ne_nil ne', ← List.append_assoc]
    · rfl
  rw [segments_eq, segments_eq, joined, behind]
  by_cases slashed : base.text.toList.getLast? = some '/'
  · rw [if_pos slashed, List.append_nil]
    obtain ⟨init, ends⟩ := List.getLast?_eq_some_iff.mp slashed
    cases init with
    | nil =>
      -- the path is the root itself
      have root : base.body = [] := by
        rw [body, isAbsolute, ends]
        rfl
      exact ⟨[], .inr (by rw [root]; rfl), by rw [root, List.nil_append, List.nil_append]⟩
    | cons c cs =>
      have whole : ∃ before, base.body = before ++ ['/'] := by
        rw [body, ends]
        split
        · exact ⟨cs, rfl⟩
        · exact ⟨c :: cs, rfl⟩
      obtain ⟨before, whole⟩ := whole
      refine ⟨(split before).map String.ofList, .inr ?_, ?_⟩
      · rw [whole, split_append_slash, List.map_append]
        rfl
      · rw [whole, List.append_assoc, List.singleton_append, split_append_slash, List.map_append]
  · rw [if_neg slashed, List.append_assoc, List.singleton_append, split_append_slash, List.map_append]
    exact ⟨_, .inl rfl, rfl⟩

end Join

end RouteTrees.Path
