import RouteTrees.Proofs.Disk.Place

/-!
# Going down from a path

A walk spells what it meets by joining one name after the other to the path where it began. That is joining
all of them at once, so what such a path says is what its base says and then the names, and taking the base
away leaves the names.
-/

namespace RouteTrees

/-- A name has at least one character. -/
theorem Disk.IsName.toList_ne_nil {name : String} (isName : IsName name) : name.toList ≠ [] := by
  intro none
  have busy := isName.busy
  rw [String.toList_eq_nil_iff.mp none] at busy
  cases busy

namespace Path

variable {base rel : Path} {name : String} {names : List String}

/-- The path that is reached from another by names. -/
def descend (base : Path) (names : List String) : Path := names.foldl (fun p name => p.join ⟨name⟩) base

@[simp] theorem descend_nil (base : Path) : base.descend [] = base := rfl

@[simp] theorem descend_cons (base : Path) (name : String) (names : List String) :
    base.descend (name :: names) = (base.join ⟨name⟩).descend names := rfl

/-! ## Joining -/

/-- A relative path joined to one that is not empty is not empty either. -/
theorem text_join_ne (ne : base.text ≠ "") (relative : rel.isAbsolute = false) :
    (base.join rel).text ≠ "" := by
  intro empty
  have text := toList_join ne relative
  rw [empty, String.toList_empty, eq_comm, List.append_eq_nil_iff, List.append_eq_nil_iff] at text
  exact ne (String.toList_eq_nil_iff.mp text.1.1)

/-- Joining a name and then something else is joining both at once. -/
theorem join_join (ne : base.text ≠ "") (isName : Disk.IsName name) (relative : rel.isAbsolute = false) :
    (base.join ⟨name⟩).join rel = base.join ⟨name ++ "/" ++ rel.text⟩ := by
  have some := isName.toList_ne_nil
  obtain ⟨init, last, text⟩ := (List.eq_nil_or_concat name.toList).resolve_left some
  rw [List.concat_eq_append] at text
  have solid : last ≠ '/' := by
    rintro rfl
    exact isName.noSlash (by simp [text])
  have single := not_isAbsolute_of_not_mem isName.noSlash
  have both : (Path.mk (name ++ "/" ++ rel.text)).isAbsolute = false := by
    rw [isAbsolute] at single ⊢
    cases first : name.toList with
    | nil => exact absurd first some
    | cons c cs => simpa [first] using single
  have joined := toList_join ne single
  have open_ : (base.join ⟨name⟩).text.toList.getLast? ≠ Option.some '/' := by
    rw [joined, text, ← List.append_assoc, List.getLast?_concat]
    simpa using solid
  have spelled : ((base.join ⟨name⟩).join rel).text = (base.join ⟨name ++ "/" ++ rel.text⟩).text := by
    rw [← String.toList_inj, toList_join (text_join_ne ne single) relative, if_neg open_, joined,
      toList_join ne both]
    simp
  exact congrArg Path.mk spelled

/-- A relative path begins with a segment that is not empty. -/
theorem exists_segments_of_relative {p : Path} (ne : p.text ≠ "") (relative : p.isAbsolute = false) :
    ∃ s ss, p.segments = s :: ss ∧ s ≠ "" := by
  obtain ⟨c, cs, text⟩ := List.exists_cons_of_ne_nil (mt String.toList_eq_nil_iff.mp ne)
  have solid : c ≠ '/' := by
    rintro rfl
    simp [isAbsolute, text] at relative
  rw [segments_eq, body, relative, if_neg Bool.false_ne_true, text, split, if_neg solid]
  cases split cs with
  | nil => exact ⟨_, _, rfl, by simp⟩
  | cons s ss => exact ⟨_, _, rfl, by simp⟩

/-- The outline of a path to which another is joined: an empty segment at its end gives way. -/
theorem outline_join (ne : base.text ≠ "") (relative : rel.isAbsolute = false) :
    ∃ kept, (base.outline.rest = kept ∨ base.outline.rest = kept ++ [""]) ∧
      (base.join rel).outline = ⟨base.outline.absolute, base.outline.start, kept ++ rel.segments⟩ := by
  obtain ⟨before, spelled, joined⟩ := segments_join ne relative
  have same := isAbsolute_join ne relative
  cases absolute : base.isAbsolute with
  | true =>
    refine ⟨before, ?_, ?_⟩
    · simpa only [outline, absolute] using spelled
    · simp only [outline, same, absolute, joined]
  | false =>
    obtain ⟨s, ss, segments, some⟩ := exists_segments_of_relative ne absolute
    cases before with
    | nil =>
      rcases spelled with none | empty
      · exact absurd none base.segments_ne_nil
      · rw [segments] at empty
        exact absurd (List.cons.inj empty).1 some
    | cons t kept =>
      have begins : t = s := by
        rcases spelled with same | slashed
        · rw [segments] at same
          exact (List.cons.inj same).1.symm
        · rw [segments] at slashed
          exact (List.cons.inj slashed).1.symm
      subst begins
      refine ⟨kept, ?_, ?_⟩
      · simpa [outline, absolute, segments] using spelled
      · rw [outline, outline, same, absolute, joined, segments]
        rfl

/-- How many components a path has: the root or the first segment, and the others that are not idle. -/
theorem length_components (p : Path) : p.components.length =
    (if p.outline.absolute then 1 else 0) + (if p.outline.start.isSome then 1 else 0) +
      (p.outline.rest.filter fun s => !isIdle s).length := by
  rw [components]
  cases p.outline.absolute <;> cases p.outline.start <;> simp <;> omega

/-- A path that is not empty has a component. -/
theorem components_ne_nil (ne : base.text ≠ "") : base.components ≠ [] := by
  cases absolute : base.isAbsolute with
  | true =>
    rw [components_of_isAbsolute absolute]
    exact List.cons_ne_nil _ _
  | false =>
    obtain ⟨s, ss, segments, some⟩ := exists_segments_of_relative ne absolute
    rw [components, outline, absolute, segments]
    simp [some]

/-- The segments that are not idle stay those of the path if another is joined to it. -/
theorem filter_rest_eq {ss kept : List String} (spelled : ss = kept ∨ ss = kept ++ [""]) :
    (ss.filter fun s => !isIdle s) = kept.filter fun s => !isIdle s := by
  rcases spelled with same | slashed
  · rw [same]
  · rw [slashed, List.filter_append]
    exact List.append_nil _

/-- A path to which another is joined says what both say. -/
theorem components_join (ne : base.text ≠ "") (relative : rel.isAbsolute = false) :
    (base.join rel).components =
      base.components ++ (rel.segments.filter fun s => !isIdle s).map componentOf := by
  obtain ⟨kept, spelled, joined⟩ := outline_join ne relative
  rw [components, components, joined]
  simp only [filter_rest_eq spelled, List.filter_append, List.map_append, List.append_assoc]

/-! ## Names with slashes between them -/

/-- The relative path that is spelled by names. -/
def ofNames (names : List String) : Path := ⟨"/".intercalate names⟩

/-- A path of several names is the first, a slash, and the path of the others. -/
theorem ofNames_cons (name : String) (ne : names ≠ []) :
    ofNames (name :: names) = ⟨name ++ "/" ++ (ofNames names).text⟩ := by
  obtain ⟨next, rest, rfl⟩ := List.exists_cons_of_ne_nil ne
  have text : ("/".intercalate (name :: next :: rest)) = name ++ "/" ++ "/".intercalate (next :: rest) := by
    rw [← String.toList_inj]
    simp
  exact congrArg Path.mk text

/-- A path of names is relative. -/
theorem isAbsolute_ofNames {names : Place} (named : names.Named) : (ofNames names).isAbsolute = false := by
  cases names with
  | nil => rfl
  | cons name rest =>
    have isName := named name List.mem_cons_self
    obtain ⟨c, cs, text⟩ := List.exists_cons_of_ne_nil isName.toList_ne_nil
    have solid : c ≠ '/' := by
      rintro rfl
      exact isName.noSlash (text ▸ List.mem_cons_self)
    rw [isAbsolute, ofNames, String.toList_intercalate, List.map_cons, text]
    cases rest <;> simp [solid]

/-- The segments of a path of names are the names. -/
theorem segments_ofNames {names : Place} (named : names.Named) (ne : names ≠ []) :
    (ofNames names).segments = names := by
  rw [segments_eq, body, isAbsolute_ofNames named, if_neg Bool.false_ne_true]
  exact split_intercalate (fun name mem => (named name mem).noSlash) ne

/-- None of the names of a place is idle, and each is what it says. -/
theorem filter_names {names : Place} (named : names.Named) :
    (names.filter fun s => !isIdle s) = names := by
  apply List.filter_eq_self.mpr
  intro name mem
  rw [(named name mem).busy, Bool.not_false]

theorem map_componentOf_names {names : Place} (named : names.Named) :
    names.map componentOf = names.map .name :=
  List.map_congr_left fun name mem => if_neg (named name mem).notUp

/-- The components of a path of names are the names. -/
theorem components_ofNames {names : Place} (named : names.Named) :
    (ofNames names).components = names.map .name := by
  cases names with
  | nil => rfl
  | cons first rest =>
    obtain ⟨isName, others⟩ := List.forall_mem_cons.mp named
    have busy := Bool.or_eq_false_iff.mp isName.busy
    have some := of_decide_eq_false busy.1
    have notHere := of_decide_eq_false busy.2
    rw [components, outline, isAbsolute_ofNames named, segments_ofNames named (List.cons_ne_nil first rest)]
    simp [some, notHere, filter_names others, map_componentOf_names others, componentOf, isName.notUp]

theorem names_ofNames {names : Place} (named : names.Named) : (ofNames names).names = names := by
  rw [Path.names, components_ofNames named, List.filterMap_map]
  exact List.filterMap_some

/-! ## Going down -/

section Descend

variable {names : Place} (ne : base.text ≠ "") (named : names.Named)
include ne named

/-- To go down by names is to join them all at once. -/
theorem descend_eq_join (some : names ≠ []) : base.descend names = base.join (ofNames names) := by
  induction names generalizing base with
  | nil => exact absurd rfl some
  | cons name rest ih =>
    obtain ⟨isName, others⟩ := List.forall_mem_cons.mp named
    have single := not_isAbsolute_of_not_mem isName.noSlash
    rw [descend_cons]
    by_cases last : rest = []
    · subst last
      rw [descend_nil, ofNames, String.intercalate_singleton]
    · rw [ih (text_join_ne ne single) others last, join_join ne isName (isAbsolute_ofNames others),
        ofNames_cons name last]

/-- Going down adds the names to the components. -/
theorem components_descend : (base.descend names).components = base.components ++ names.map .name := by
  by_cases none : names = []
  · subst none
    simp
  · rw [descend_eq_join ne named none, components_join ne (isAbsolute_ofNames named),
      segments_ofNames named none, filter_names named, map_componentOf_names named]

end Descend

/-- What is reached by names is called by the last of them. -/
theorem fileName?_descend {names : Place} {name : String} (ne : base.text ≠ "")
    (named : Place.Named (names ++ [name])) : (base.descend (names ++ [name])).fileName? = some name := by
  rw [fileName?, components_descend ne named, List.map_append, ← List.append_assoc, List.map_singleton,
    List.getLast?_concat]

/-- Different names lead to paths that say different things. -/
theorem descend_inj {names names' : Place} (ne : base.text ≠ "") (named : names.Named)
    (named' : names'.Named) (same : (base.descend names).components = (base.descend names').components) :
    names = names' := by
  rw [components_descend ne named, components_descend ne named', List.append_cancel_left_eq] at same
  exact List.map_inj_right (fun _ _ => Component.name.inj) |>.mp same

/-! ## Taking the base away -/

/-- Taking a front away from a list that begins with it leaves the rest. -/
theorem dropComponents_append (before after : List Component) :
    dropComponents before (before ++ after) = some after := by
  induction before with
  | nil => rfl
  | cons c before ih => rw [List.cons_append, dropComponents, if_pos rfl, ih]

/-- Behind as many segments as are not idle, names are left as they are. -/
theorem dropSegments_append {names : Place} (named : names.Named) (before : List String) :
    dropSegments (before.filter fun s => !isIdle s).length (before ++ names) = names := by
  induction before with
  | nil =>
    cases names with
    | nil => rfl
    | cons name rest => simp [dropSegments, (named name List.mem_cons_self).busy]
  | cons s before ih =>
    rw [List.cons_append]
    by_cases idle : isIdle s = true
    · rw [List.filter_cons_of_neg (by simp [idle]), dropSegments.eq_def]
      simpa only [idle, if_true] using ih
    · rw [List.filter_cons_of_pos (by simpa using idle), List.length_cons]
      simpa only [dropSegments, idle, Bool.false_eq_true, if_false] using ih

/-- No name is an idle segment. -/
theorem trimIdle_names {names : Place} (named : names.Named) : trimIdle names = names := by
  rcases List.eq_nil_or_concat names with rfl | ⟨init, last, rfl⟩
  · rfl
  · have busy := (named last (by simp)).busy
    simp [trimIdle, busy]

/-- The last segment of some names can be dropped. -/
theorem dropLastSegment?_concat {names : Place} {name : String} (named : Place.Named (names ++ [name])) :
    dropLastSegment? (names ++ [name]) = some names := by
  have last := (named name (by simp)).busy
  have before : Place.Named names := fun part mem => named part (List.mem_append_left _ mem)
  have trimmed := trimIdle_names before
  rw [trimIdle] at trimmed
  simp [dropLastSegment?, last, trimmed]

/-- The names before the last are the directory of what is spelled by names. -/
theorem parent?_ofNames {names : Place} {name : String} (named : Place.Named (names ++ [name])) :
    (ofNames (names ++ [name])).parent? = some (ofNames names) := by
  have segments := segments_ofNames named (by simp)
  cases names with
  | nil =>
    have first : name ≠ "" := by
      rintro rfl
      exact (named "" (by simp)).toList_ne_nil rfl
    rw [parent?, outline, isAbsolute_ofNames named, segments]
    simp [first, dropLastSegment?, ofNames]
  | cons first rest =>
    have others : Place.Named (rest ++ [name]) := fun part mem => named part (List.mem_cons_of_mem _ mem)
    have some : first ≠ "" := by
      rintro rfl
      exact (named "" (by simp)).toList_ne_nil rfl
    rw [parent?, outline, isAbsolute_ofNames named, segments]
    simp [some, dropLastSegment?_concat others, ofOutline, ofNames]

/-- What is reached from a base by names leads on from the base by these names. -/
theorem stripBase?_descend {names : Place} (ne : base.text ≠ "") (named : names.Named)
    (some : names ≠ []) : (base.descend names).stripBase? base = Option.some (ofNames names) := by
  obtain ⟨kept, spelled, joined⟩ := outline_join ne (isAbsolute_ofNames named)
  rw [← descend_eq_join ne named some, segments_ofNames named some] at joined
  have count := base.length_components
  rw [filter_rest_eq spelled] at count
  have behind : base.components.length - (if base.outline.absolute then 1 else 0) -
      (if base.outline.start.isSome then 1 else 0) = (kept.filter fun s => !isIdle s).length := by
    omega
  have nonempty : base.components.isEmpty = false :=
    List.isEmpty_eq_false_iff.mpr (components_ne_nil ne)
  rw [stripBase?, components_descend ne named, dropComponents_append]
  simp only [joined, nonempty, Bool.false_eq_true, if_false, behind, dropSegments_append named,
    trimIdle_names named]
  rfl

end Path

/-! ## Directories -/

namespace Place

/-- The text of a place as that of a directory: a slash before the first name and one behind each. -/
def slashed (place : Place) : String := "/" ++ String.join (place.map (· ++ "/"))

/-- The path of what a directory holds is its own text with the name behind it. -/
theorem toPath_concat (place : Place) (name : String) :
    (place ++ [name] : Place).toPath = ⟨place.slashed ++ name⟩ := by
  have joined : "/".intercalate (place ++ [name]) = String.join (place.map (· ++ "/")) ++ name := by
    induction place with
    | nil => simp
    | cons first place ih =>
      have some : place ++ [name] ≠ [] := by simp
      have spelled := Path.ofNames_cons first some
      have text := congrArg Path.text spelled
      simp only [Path.ofNames, ih] at text
      rw [List.cons_append, text, List.map_cons, String.join_cons]
      simp only [String.append_assoc]
  rw [toPath, joined, slashed, String.append_assoc]

/-- Different directories have different texts. -/
theorem slashed_inj {place place' : Place} (free : ∀ name ∈ place, '/' ∉ name.toList)
    (free' : ∀ name ∈ place', '/' ∉ name.toList) (same : place.slashed = place'.slashed) : place = place' := by
  have segments {p : Place} (free : ∀ name ∈ p, '/' ∉ name.toList) :
      (Path.mk p.slashed).segments = p ++ [""] := by
    have spelled := toPath_concat p ""
    rw [String.append_empty] at spelled
    rw [← spelled, Path.segments_eq, toPath, Path.body_slash]
    apply Path.split_intercalate _ (List.append_ne_nil_of_right_ne_nil p (List.cons_ne_nil "" []))
    intro name mem
    rcases List.mem_append.mp mem with old | last
    · exact free name old
    · simp [List.mem_singleton.mp last]
  have whole := segments free
  rw [same, segments free'] at whole
  exact (List.append_inj_left' whole rfl).symm

end Place

end RouteTrees
