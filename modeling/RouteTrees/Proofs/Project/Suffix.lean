import RouteTrees.Proofs.Path.Least
import RouteTrees.Proofs.Path.Segments

/-!
# Finding a file by the end of its path

What is found by a suffix is known by the files alone: of those whose path without extension ends with the
names in the suffix, the one that comes before all others. There is no more than one such file where no two
paths say the same in different spellings, so neither the order nor the repetition of files counts. Of the
suffix only the names count.
-/

namespace RouteTrees

namespace FileIndex

/-! ## The best of some files -/

/-- Whether a file is a better answer than another: by a shorter path, or by one that is as long and comes
before the other. -/
def Precedes (p q : Path) : Prop :=
  p.byteLength < q.byteLength ∨ p.byteLength = q.byteLength ∧ p.Before q

instance (p q : Path) : Decidable (Precedes p q) :=
  inferInstanceAs (Decidable (p.byteLength < q.byteLength ∨
    p.byteLength = q.byteLength ∧ p.compare q = .lt))

theorem better_iff {p q : Path} : better p q = true ↔ Precedes p q := by
  simp [better, Precedes, Path.Before]

theorem ranks_better : Path.Ranks better := Path.ranks_of_size better_iff

/-- What the code finds is the least file. -/
theorem best?_eq_least? (files : List Path) : best? files = Path.least? better files := by
  induction files with
  | nil => rfl
  | cons p rest ih =>
    cases found : Path.least? better rest with
    | none =>
      rw [found] at ih
      simp only [best?, Path.least?, ih, found]
    | some q =>
      rw [found] at ih
      simp only [best?, Path.least?, ih, found]

theorem best?_eq_none_iff {files : List Path} : best? files = none ↔ files = [] := by
  rw [best?_eq_least?, Path.least?_eq_none_iff]

/-- The best of some files is the one that precedes all others. -/
theorem best?_eq_some_iff {files : List Path} {p : Path} (spelled : Path.SpelledOnce files) :
    best? files = some p ↔ p ∈ files ∧ ∀ q ∈ files, q ≠ p → Precedes p q := by
  rw [best?_eq_least?, Path.least?_eq_some_iff ranks_better spelled]
  simp only [better_iff]

/-! ## What a suffix asks for -/

/-- Segments that name nothing. -/
def padding : List String := ["", ".", ".."]

/-- The names that a suffix asks for: what stands between its slashes, without what names nothing. -/
def asked (suffix : String) : List String :=
  ((Path.split suffix.toList).map String.ofList).filter fun s => s ∉ padding

/-- A slash parts what is asked for. -/
theorem asked_append_slash (before after : String) :
    asked (before ++ "/" ++ after) = asked before ++ asked after := by
  have text : (before ++ "/" ++ after).toList = before.toList ++ '/' :: after.toList := by
    simp
  rw [asked, text, Path.split_append_slash, List.map_append, List.filter_append]
  rfl

/-- Padding asks for nothing. -/
theorem asked_of_padding {s : String} (pads : s ∈ padding) : asked s = [] := by
  revert s
  decide

/-- Padding is what leads nowhere, and what leads up. -/
theorem mem_padding_iff {s : String} : s ∈ padding ↔ Path.isIdle s = true ∨ s = ".." := by
  simp [padding, Path.isIdle, or_assoc]

/-- A segment gives a name if it is neither idle nor a step up. -/
theorem names_of_segments (ss : List String) :
    (((ss.filter fun s => !Path.isIdle s).map Path.componentOf).filterMap fun
      | .name s => some s
      | _ => none) = ss.filter fun s => s ∉ padding := by
  induction ss with
  | nil => rfl
  | cons s ss ih =>
    by_cases idle : Path.isIdle s = true
    · have pads : s ∈ padding := mem_padding_iff.mpr (.inl idle)
      rw [List.filter_cons_of_neg (by simpa using idle), List.filter_cons_of_neg (by simpa using pads), ih]
    · rw [List.filter_cons_of_pos (by simpa using idle), List.map_cons]
      by_cases up : s = ".."
      · have pads : s ∈ padding := mem_padding_iff.mpr (.inr up)
        rw [List.filter_cons_of_neg (by simpa using pads), Path.componentOf, if_pos up]
        exact ih
      · have names : s ∉ padding := mt mem_padding_iff.mp (not_or.mpr ⟨idle, up⟩)
        rw [List.filter_cons_of_pos (by simpa using names), Path.componentOf, if_neg up]
        exact congrArg (s :: ·) ih

/-- The names in a path are its segments without what names nothing. -/
theorem names_eq_filter (p : Path) : p.names = p.segments.filter fun s => s ∉ padding := by
  cases absolute : p.isAbsolute with
  | true =>
    rw [Path.names, Path.components_of_isAbsolute absolute, List.filterMap_cons_none rfl]
    exact names_of_segments p.segments
  | false =>
    rw [Path.names, Path.components, Path.outline, absolute]
    cases p.segments with
    | nil => rfl
    | cons s ss =>
      rw [List.filterMap_append, if_neg Bool.false_ne_true, List.nil_append]
      refine (congrArg (_ ++ ·) (names_of_segments ss)).trans ?_
      by_cases pads : s ∈ padding
      · rw [List.filter_cons_of_neg (by simpa using pads)]
        have none : s = "" ∨ s = "." ∨ s = ".." := by simpa [padding] using pads
        rcases none with rfl | rfl | rfl <;> rfl
      · rw [List.filter_cons_of_pos (by simpa using pads)]
        have other : s ≠ "" ∧ s ≠ "." ∧ s ≠ ".." := by simpa [padding] using pads
        simp [other, Path.componentOf]

/-- The names of a suffix are what it asks for. -/
theorem names_eq_asked (suffix : String) : (Path.mk suffix).names = asked suffix := by
  rw [names_eq_filter, asked, Path.segments_eq, Path.body]
  split
  · next absolute =>
    -- the slash of the root stands behind an empty segment
    obtain ⟨cs, text⟩ : ∃ cs, suffix.toList = '/' :: cs := by
      cases text : suffix.toList with
      | nil => simp [Path.isAbsolute, text] at absolute
      | cons c cs => exact ⟨cs, by simpa [Path.isAbsolute, text] using absolute⟩
    simp [text, Path.split, padding]
  · rfl

/-- A suffix and what comes of it if more segments that name nothing, or more slashes, are put before it,
between its segments or behind it. -/
inductive Padded (suffix : String) : String → Prop where
  | same : Padded suffix suffix
  | before {s t : String} (pads : s ∈ padding) (padded : Padded suffix t) : Padded suffix (s ++ "/" ++ t)
  | between {s front back : String} (pads : s ∈ padding) (padded : Padded suffix (front ++ "/" ++ back)) :
      Padded suffix (front ++ "/" ++ s ++ "/" ++ back)
  | behind {s t : String} (pads : s ∈ padding) (padded : Padded suffix t) : Padded suffix (t ++ "/" ++ s)

/-- A padded suffix asks for the same names. -/
theorem Padded.asked_eq {suffix t : String} (padded : Padded suffix t) : asked t = asked suffix := by
  induction padded with
  | same => rfl
  | before pads _ ih => rw [asked_append_slash, asked_of_padding pads, List.nil_append, ih]
  | between pads _ ih =>
    rw [asked_append_slash] at ih
    rw [asked_append_slash, asked_append_slash, asked_of_padding pads, List.append_nil, ih]
  | behind pads _ ih => rw [asked_append_slash, asked_of_padding pads, List.append_nil, ih]

/-! ## What is found -/

/-- Whether the path of a file, without its extension, ends with names. -/
def EndsIn (p : Path) (names : List String) : Prop :=
  names.map Path.Component.name <:+ p.withoutExtension.components

instance (p : Path) (names : List String) : Decidable (EndsIn p names) :=
  inferInstanceAs (Decidable (_ <:+ _))

/-- The code compares the ends of paths name by name. -/
theorem endsWith_iff {p : Path} {names : List String} :
    endsWith p.withoutExtension names = true ↔ EndsIn p names := by
  rw [endsWith, EndsIn, List.isSuffixOf_iff_suffix]

/-- A suffix finds the best of the files that end in what it asks for. -/
theorem find?_eq (index : FileIndex) (suffix : String) : index.find? suffix =
    if asked suffix = [] then none else best? (index.files.filter fun p => EndsIn p (asked suffix)) := by
  have tests : (fun p => endsWith (Path.withoutExtension p) (asked suffix)) =
      fun p => decide (EndsIn p (asked suffix)) := by
    funext p
    rw [Bool.eq_iff_iff, endsWith_iff, decide_eq_true_iff]
  simp only [find?, names_eq_asked, List.isEmpty_iff, tests]

/-- A suffix finds nothing if it asks for nothing, or if no file ends so. -/
theorem find?_eq_none_iff {index : FileIndex} {suffix : String} : index.find? suffix = none ↔
    asked suffix = [] ∨ ∀ p ∈ index.files, ¬EndsIn p (asked suffix) := by
  rw [find?_eq]
  split
  · next none => simp [none]
  · next some => simp [some, best?_eq_none_iff]

/-- What is found by a suffix is the file that ends with its names and precedes all others that do. -/
theorem find?_eq_some_iff {index : FileIndex} (spelled : Path.SpelledOnce index.files) {suffix : String}
    {p : Path} : index.find? suffix = some p ↔ asked suffix ≠ [] ∧
      (p ∈ index.files ∧ EndsIn p (asked suffix)) ∧
      ∀ q ∈ index.files, EndsIn q (asked suffix) → q ≠ p → Precedes p q := by
  rw [find?_eq]
  split
  · next none => simp [none]
  · next some =>
    have spelled' : Path.SpelledOnce (index.files.filter fun q => EndsIn q (asked suffix)) :=
      fun a mem b mem' => spelled a (List.mem_filter.mp mem).1 b (List.mem_filter.mp mem').1
    rw [best?_eq_some_iff spelled']
    simp [some]

/-- Only the names in a suffix count. -/
theorem find?_congr {index index' : FileIndex} {suffix suffix' : String}
    (spelled : Path.SpelledOnce index.files) (same : ∀ p, p ∈ index'.files ↔ p ∈ index.files)
    (asks : asked suffix' = asked suffix) : index'.find? suffix' = index.find? suffix := by
  have spelled' : Path.SpelledOnce index'.files := fun a mem b mem' =>
    spelled a ((same a).mp mem) b ((same b).mp mem')
  apply Option.ext
  intro p
  rw [find?_eq_some_iff spelled', find?_eq_some_iff spelled]
  simp only [same, asks]

/-- An index holds the files that it is made of, if they are in full. -/
theorem mem_ofFiles_iff {canonical : Path → Path} {files : List Path}
    (inFull : ∀ p ∈ files, canonical p = p ∧ p.clean = p) {p : Path} :
    p ∈ (ofFiles canonical files).files ↔ p ∈ files := by
  have same : files.map canonical = files :=
    (List.map_congr_left fun p mem => (inFull p mem).1).trans (List.map_id _)
  have spelled := Path.spelledOnce_of_clean fun p mem => (inFull p mem).2
  rw [ofFiles, same]
  exact Path.mem_sortUnique_iff spelled

/-- What a suffix finds among files that are given by their full and clean paths, in any order and any number
of times. It is nothing if the suffix has no names or no path without extension ends with them; otherwise it
is the one file of those whose paths do that is shorter than all others or as long and before them. Neither
the order of the files nor their repetition counts, nor what is put between the names in the suffix. -/
theorem find?_ofFiles {canonical : Path → Path} {files : List Path}
    (inFull : ∀ p ∈ files, canonical p = p ∧ p.clean = p) (suffix : String) :
    ((ofFiles canonical files).find? suffix = none ↔
      asked suffix = [] ∨ ∀ p ∈ files, ¬EndsIn p (asked suffix)) ∧
    (∀ p, (ofFiles canonical files).find? suffix = some p ↔ asked suffix ≠ [] ∧
      (p ∈ files ∧ EndsIn p (asked suffix)) ∧
      ∀ q ∈ files, EndsIn q (asked suffix) → q ≠ p → Precedes p q) ∧
    (∀ files', (∀ p, p ∈ files' ↔ p ∈ files) →
      (ofFiles canonical files').find? suffix = (ofFiles canonical files).find? suffix) ∧
    ∀ suffix', Padded suffix suffix' →
      (ofFiles canonical files).find? suffix' = (ofFiles canonical files).find? suffix := by
  have spelled : Path.SpelledOnce (ofFiles canonical files).files :=
    Path.spelledOnce_of_clean fun p mem => (inFull p ((mem_ofFiles_iff inFull).mp mem)).2
  refine ⟨?_, fun p => ?_, fun files' same => ?_, fun suffix' padded => ?_⟩
  · rw [find?_eq_none_iff]
    simp only [mem_ofFiles_iff inFull]
  · rw [find?_eq_some_iff spelled]
    simp only [mem_ofFiles_iff inFull]
  · have inFull' : ∀ p ∈ files', canonical p = p ∧ p.clean = p := fun p mem =>
      inFull p ((same p).mp mem)
    apply find?_congr spelled _ rfl
    intro p
    rw [mem_ofFiles_iff inFull', mem_ofFiles_iff inFull, same]
  · exact find?_congr spelled (fun _ => Iff.rfl) padded.asked_eq

/-- Three headers: the shortest two paths are of one length, and the longest matches too. -/
def headers : List Path :=
  [⟨"/p/packages/web/components/Header.tsx"⟩, ⟨"/p/b/components/Header.tsx"⟩, ⟨"/p/a/components/Header.tsx"⟩]

/-- Among the headers the shorter path is found, whatever their order and the padding. -/
theorem find?_ofFiles_headers :
    (ofFiles id headers).find? "./components/Header" = some ⟨"/p/a/components/Header.tsx"⟩ ∧
      (ofFiles id headers).find? "../../Footer" = none ∧
      (ofFiles id (headers.reverse ++ headers)).find? "./components/Header" =
        some ⟨"/p/a/components/Header.tsx"⟩ ∧
      (ofFiles id headers).find? "././components/Header" = some ⟨"/p/a/components/Header.tsx"⟩ := by
  have inFull : ∀ p ∈ headers, id p = p ∧ p.clean = p := by decide
  obtain ⟨-, found, order, padded⟩ := find?_ofFiles inFull "./components/Header"
  obtain ⟨nothing, -⟩ := find?_ofFiles inFull "../../Footer"
  have first := (found ⟨"/p/a/components/Header.tsx"⟩).mpr (by decide)
  refine ⟨first, nothing.mpr (by decide), ?_, ?_⟩
  · rw [order (headers.reverse ++ headers) (by simp), first]
  · rw [padded "././components/Header" (.before (s := ".") (by decide) .same), first]

end FileIndex

end RouteTrees
