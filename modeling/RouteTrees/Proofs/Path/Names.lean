import RouteTrees.Project.Resolution
import RouteTrees.Proofs.Path.Segments

/-!
# The last name of a path

What a path is called is its last segment, and its extension is what stands behind the last dot there. So an
extension that is added to a path is that of the result, unless there was no name for it to be added to.
-/

namespace RouteTrees.Path

variable {p : Path} {before : List String} {name stem extension : String}

/-! ## Names -/

/-- A text with a character other than a dot is a name. -/
theorem busy_of_mem {c : Char} (mem : c ∈ name.toList) (ne : c ≠ '.') :
    isIdle name = false ∧ name ≠ ".." := by
  have differs : ∀ dots : String, dots.toList.all (· = '.') = true → name ≠ dots := by
    rintro dots all rfl
    exact ne (of_decide_eq_true (List.all_eq_true.mp all c mem))
  refine ⟨?_, differs ".." (by decide)⟩
  rw [isIdle, Bool.or_eq_false_iff, decide_eq_false_iff_not, decide_eq_false_iff_not]
  exact ⟨differs "" (by decide), differs "." (by decide)⟩

theorem componentOf_of_ne (notUp : name ≠ "..") : componentOf name = .name name := if_neg notUp

/-- A path is called by its last segment, if that is a name. -/
theorem fileName?_of_segments (segments : p.segments = before ++ [name]) (busy : isIdle name = false)
    (notUp : name ≠ "..") : p.fileName? = some name := by
  have single : ([name].filter fun s => !isIdle s).map componentOf = [.name name] := by
    rw [List.filter_cons_of_pos (by rw [busy]; rfl), List.filter_nil, List.map_singleton,
      componentOf_of_ne notUp]
  have ends : ∃ cs, p.components = cs ++ [.name name] := by
    cases absolute : p.isAbsolute with
    | true =>
      rw [components_of_isAbsolute absolute, segments, List.filter_append, List.map_append, single,
        ← List.cons_append]
      exact ⟨_, rfl⟩
    | false =>
      rw [components, outline, absolute, segments]
      cases before with
      | nil =>
        obtain ⟨ne, notHere⟩ := Bool.or_eq_false_iff.mp busy
        have ne := of_decide_eq_false ne
        have notHere := of_decide_eq_false notHere
        refine ⟨[], ?_⟩
        simp [ne, notHere, componentOf_of_ne notUp]
      | cons s ss =>
        simp only [List.cons_append, List.filter_append, List.map_append, single, ← List.append_assoc]
        exact ⟨_, rfl⟩
  obtain ⟨cs, ends⟩ := ends
  unfold fileName?
  rw [ends, List.getLast?_concat]

/-- Whether a path is of a source file depends on its file name only. -/
theorem isSource_eq_of_fileName? {q : Path} (same : p.fileName? = q.fileName?) :
    p.isSource = q.isSource := by
  unfold isSource extension?
  rw [same]

/-! ## Extensions -/

/-- A name is split behind its last dot, unless nothing stands before that or there is none. -/
theorem splitName_eq {front after : List Char} (text : name.toList = front ++ after) (free : '.' ∉ after)
    (ends : front = [] ∨ ∃ before, front = before ++ ['.']) :
    splitName name = if front.dropLast.isEmpty then (name, none)
      else (String.ofList front.dropLast, some (String.ofList after)) := by
  have dotless : ∀ c ∈ after.reverse, decide (c ≠ '.') = true := by
    intro c mem
    apply decide_eq_true
    rintro rfl
    exact free (List.mem_reverse.mp mem)
  have stops : front.reverse.takeWhile (· ≠ '.') = [] := by
    rcases ends with rfl | ⟨before, rfl⟩ <;> simp
  have behind : (name.toList.reverse.takeWhile (· ≠ '.')).reverse = after := by
    rw [text, List.reverse_append, List.takeWhile_append_of_pos dotless, stops, List.append_nil,
      List.reverse_reverse]
  have ahead : name.toList.take (name.toList.length - after.length) = front := by
    rw [text, List.length_append, Nat.add_sub_cancel, List.take_left]
  unfold splitName
  simp only [behind, ahead]

/-- The extension of a name is what stands behind the last dot, if anything stands before it. -/
theorem splitName_dot (ne : stem ≠ "") (free : '.' ∉ extension.toList) :
    splitName (stem ++ "." ++ extension) = (stem, some extension) := by
  have text : (stem ++ "." ++ extension).toList = (stem.toList ++ ['.']) ++ extension.toList := by
    rw [String.toList_append, String.toList_append]
    rfl
  rw [splitName_eq text free (.inr ⟨_, rfl⟩)]
  simp [ne]

/-- A name with an extension is what stands before its last dot, the dot, and the extension. -/
theorem eq_of_splitName (parts : splitName name = (stem, some extension)) :
    stem ≠ "" ∧ '.' ∉ extension.toList ∧ name = stem ++ "." ++ extension := by
  by_cases dotted : '.' ∈ name.toList
  · -- the last dot is the first from behind
    obtain ⟨after, before, reversed, free⟩ := List.eq_append_cons_of_mem (List.mem_reverse.mpr dotted)
    have free' : '.' ∉ after.reverse := mt List.mem_reverse.mp free
    have text : name.toList = (before.reverse ++ ['.']) ++ after.reverse := by
      rw [← List.reverse_reverse name.toList, reversed]
      simp
    rw [splitName_eq text free' (.inr ⟨_, rfl⟩), List.dropLast_concat] at parts
    split at parts
    · cases parts
    · next some =>
      cases parts
      rw [List.isEmpty_iff] at some
      refine ⟨by simpa using some, by simpa using free, ?_⟩
      rw [← String.toList_inj, text]
      simp
  · have text : name.toList = [] ++ name.toList := rfl
    rw [splitName_eq text dotted (.inl rfl)] at parts
    cases parts

/-- What has no slash is put behind the last part of a text. -/
theorem split_append_of_not_mem {ds : List Char} (free : '/' ∉ ds) (cs : List Char) :
    ∃ before last, split cs = before ++ [last] ∧ split (cs ++ ds) = before ++ [last ++ ds] := by
  induction cs with
  | nil => exact ⟨[], [], rfl, split_of_not_mem free⟩
  | cons c cs ih =>
    obtain ⟨before, last, whole, extended⟩ := ih
    by_cases slash : c = '/'
    · refine ⟨[] :: before, last, ?_, ?_⟩
      · rw [split, if_pos slash, whole]
        rfl
      · rw [List.cons_append, split, if_pos slash, extended]
        rfl
    · cases before with
      | nil =>
        refine ⟨[], c :: last, ?_, ?_⟩
        · rw [split, if_neg slash, whole]
          rfl
        · rw [List.cons_append, split, if_neg slash, extended]
          rfl
      | cons first before =>
        refine ⟨(c :: first) :: before, last, ?_, ?_⟩
        · rw [split, if_neg slash, whole]
          rfl
        · rw [List.cons_append, split, if_neg slash, extended]
          rfl

/-- An extension is put behind the text of a path, with a dot between. -/
theorem toList_addExtension (p : Path) (extension : String) :
    (p.addExtension extension).text.toList = p.text.toList ++ '.' :: extension.toList := by
  rw [addExtension, String.toList_append, String.toList_append, List.append_assoc]
  rfl

/-- A path with an extension put behind it is absolute if it was. -/
theorem isAbsolute_addExtension (p : Path) (extension : String) :
    (p.addExtension extension).isAbsolute = p.isAbsolute := by
  rw [isAbsolute, isAbsolute, toList_addExtension]
  cases p.text.toList <;> rfl

/-- An extension is added to the last segment of a path. -/
theorem segments_addExtension (p : Path) (free : '/' ∉ extension.toList) :
    ∃ before last, p.segments = before ++ [last] ∧
      (p.addExtension extension).segments = before ++ [last ++ "." ++ extension] := by
  have free' : '/' ∉ '.' :: extension.toList := by
    rw [List.mem_cons, not_or]
    exact ⟨by decide, free⟩
  have body : (p.addExtension extension).body = p.body ++ '.' :: extension.toList := by
    rw [body, body, isAbsolute_addExtension, toList_addExtension, isAbsolute]
    cases p.text.toList with
    | nil => rfl
    | cons c cs => split <;> rfl
  obtain ⟨before, last, whole, extended⟩ := split_append_of_not_mem free' p.body
  refine ⟨before.map String.ofList, String.ofList last, ?_, ?_⟩
  · rw [segments_eq, whole, List.map_append, List.map_singleton]
  · have text : String.ofList last ++ "." ++ extension = String.ofList (last ++ '.' :: extension.toList) := by
      rw [← String.toList_inj]
      simp
    rw [segments_eq, body, extended, List.map_append, List.map_singleton, text]

/-- How the extensions of source files are spelled. -/
theorem spelling_of_sourceExtension (listed : extension ∈ Convention.sourceExtensions) :
    extension ≠ "" ∧ '/' ∉ extension.toList ∧ '.' ∉ extension.toList := by
  revert extension
  decide

/-- How the names of index files are spelled. -/
theorem spelling_of_indexFile {file : String} (listed : file ∈ Convention.indexFiles) :
    '/' ∉ file.toList ∧ isIdle file = false ∧ file ≠ ".." ∧ (Path.mk file).isSource = true := by
  revert file
  decide

/-- A segment to which the extension of a source file is added is a name. -/
theorem busy_of_sourceExtension (listed : extension ∈ Convention.sourceExtensions) (stem : String) :
    isIdle (stem ++ "." ++ extension) = false ∧ stem ++ "." ++ extension ≠ ".." := by
  obtain ⟨ne, -, noDot⟩ := spelling_of_sourceExtension listed
  obtain ⟨c, cs, text⟩ := List.exists_cons_of_ne_nil (mt String.toList_eq_nil_iff.mp ne)
  have mem : c ∈ extension.toList := text ▸ List.mem_cons_self
  refine busy_of_mem (c := c) ?_ fun dot => noDot (dot ▸ mem)
  rw [String.toList_append]
  exact List.mem_append_right _ mem

/-- A path with the extension of a source file added is that of one, unless the extension is all that it is
called by. -/
theorem isSource_addExtension (p : Path) (listed : extension ∈ Convention.sourceExtensions) :
    (p.addExtension extension).isSource = true ∨
      (p.addExtension extension).fileName? = some ("." ++ extension) := by
  obtain ⟨-, noSlash, noDot⟩ := spelling_of_sourceExtension listed
  obtain ⟨before, last, -, segments⟩ := segments_addExtension p noSlash
  obtain ⟨busy, notUp⟩ := busy_of_sourceExtension listed last
  have called := fileName?_of_segments segments busy notUp
  by_cases empty : last = ""
  · rw [called, empty, String.empty_append]
    exact .inr rfl
  · left
    unfold isSource extension?
    rw [called, Option.bind_some, splitName_dot empty noDot]
    exact List.contains_iff_mem.mpr listed

end RouteTrees.Path
