import RouteTrees.Proofs.Project.Sources
import RouteTrees.Proofs.Project.Stages
import RouteTrees.Proofs.Project.Suffix

/-!
# Files that differ in their extensions only

An import may leave the extension to be found out. Where it is read from the importing file on, extensions are
tried in order of priority. A search does not know that order: of files in one directory that differ in their
extensions only it takes the one with the shortest, and of two that are as short the first in the alphabet. The
two agree unless the search finds a file without types beside one with types.
-/

namespace RouteTrees

/-! ## Extensions -/

namespace Text

/-- Whether a text is shorter than another, or as long and before it. -/
def Shortlex (s t : String) : Prop :=
  s.utf8ByteSize < t.utf8ByteSize ∨ s.utf8ByteSize = t.utf8ByteSize ∧ s < t

instance (s t : String) : Decidable (Shortlex s t) := inferInstanceAs (Decidable (_ ∨ _))

/-- A common front does not count in comparing texts. -/
theorem append_lt_append_iff {front s t : String} : front ++ s < front ++ t ↔ s < t := by
  rw [String.lt_iff, String.lt_iff, String.toList_append, String.toList_append]
  induction front.toList with
  | nil => rfl
  | cons c cs ih => simpa [List.cons_lt_cons_iff] using ih

theorem shortlex_append_iff {front s t : String} : Shortlex (front ++ s) (front ++ t) ↔ Shortlex s t := by
  simp only [Shortlex, String.utf8ByteSize_append, Nat.add_lt_add_iff_left, Nat.add_left_cancel_iff,
    append_lt_append_iff]

end Text

namespace Convention

/-- Whether a search prefers the first of two extensions, and an import that is read from the importing file
on the second. -/
def Overtakes (e f : String) : Prop := (e, f) ∈ [("js", "ts"), ("js", "tsx"), ("jsx", "tsx")]

instance (e f : String) : Decidable (Overtakes e f) := inferInstanceAs (Decidable (_ ∈ _))

/-- An extension overtakes another that is tried before it, if it comes first in the order of texts. -/
theorem overtakes_iff : ∀ e ∈ sourceExtensions, ∀ f ∈ sourceExtensions,
    (Overtakes e f ↔ [f, e].Sublist resolveExtensions ∧ Text.Shortlex e f) := by
  decide

end Convention

/-! ## Paths of siblings -/

namespace Place

variable {directory : Place} {stem e f : String}

/-- Without its extension, the path of a file is that of its stem. -/
theorem withoutExtension_toPath (named : Named (directory ++ [stem ++ "." ++ e])) (ne : stem ≠ "")
    (dotless : '.' ∉ e.toList) :
    (directory ++ [stem ++ "." ++ e] : Place).toPath.withoutExtension =
      (directory ++ [stem] : Place).toPath := by
  have called := fileName?_toPath named
  have trimmed : (directory ++ [stem ++ "." ++ e] : Place).toPath.trimmed =
      (directory ++ [stem ++ "." ++ e] : Place).toPath := by
    have segments := segments_toPath named (by simp)
    rw [Path.trimmed, Path.outline, isAbsolute_toPath, segments]
    simp only [Path.trimIdle_names named, Path.ofOutline, if_true]
    rfl
  have text : (directory ++ [stem ++ "." ++ e] : Place).toPath.text.toList =
      directory.slashed.toList ++ (stem ++ "." ++ e).toList := by
    rw [toPath_concat, String.toList_append]
  rw [Path.withoutExtension, called]
  simp only [trimmed, text, Path.splitName_dot ne dotless]
  simp only [List.length_append, String.length_toList]
  rw [← String.length_toList, Nat.add_sub_cancel, List.take_left, String.ofList_toList, toPath_concat]

/-- Of two names in one directory, the shorter is that of the shorter path, and names order paths that are as
long. -/
theorem precedes_iff {name name' : String} (named : Named (directory ++ [name]))
    (named' : Named (directory ++ [name'])) :
    FileIndex.Precedes (directory ++ [name] : Place).toPath (directory ++ [name'] : Place).toPath ↔
      Text.Shortlex name name' := by
  have bytes (name : String) : (directory ++ [name] : Place).toPath.byteLength =
      directory.slashed.utf8ByteSize + name.utf8ByteSize := by
    rw [Path.byteLength, toPath_concat, String.utf8ByteSize_append]
  have order : (directory ++ [name] : Place).toPath.compare (directory ++ [name'] : Place).toPath =
      Ord.compare name name' := by
    rw [Path.compare, components_toPath named, components_toPath named', List.map_append,
      List.map_append, ← List.cons_append, ← List.cons_append, Path.compareComponents_append]
    simp [Path.compareComponents, Path.Component.compare]
  have less : Ord.compare name name' = .lt ↔ name < name' := compareOfLessAndEq_eq_lt
  rw [FileIndex.Precedes, Path.Before, order, less, bytes, bytes, Nat.add_lt_add_iff_left,
    Nat.add_left_cancel_iff, Text.Shortlex]

/-- A sibling is spelled with its extension behind the stem. -/
theorem addExtension_toPath (directory : Place) (stem f : String) :
    (directory ++ [stem] : Place).toPath.addExtension f = (directory ++ [stem ++ "." ++ f] : Place).toPath := by
  rw [Path.addExtension, toPath_concat, toPath_concat, String.append_assoc, String.append_assoc,
    String.append_assoc]

end Place

namespace Disk

variable {d : Disk} {directory : Place} {name : String}

/-- A path of a directory and a name leads to a file if it is that of a link or of the file. -/
theorem hasFile_or_isLink (wellFormed : d.WellFormed) (isDir : d.hasDir directory = true)
    (noSlash : '/' ∉ name.toList) (isFile : d.isFile (directory ++ [name] : Place).toPath = true) :
    d.hasFile (directory ++ [name]) = true ∨ d.IsLink (directory ++ [name] : Place).toPath := by
  obtain ⟨es, holds⟩ := hasDir_iff.mp isDir
  have named := Place.named_of_at? wellFormed holds
  obtain ⟨place, content, located, there⟩ := isFile_iff.mp isFile
  obtain ⟨before, last, between, above, segments, -, -, leads, same⟩ := exists_name_of_file located there
  have free : ∀ part ∈ directory ++ [name], '/' ∉ part.toList := by
    intro part mem
    rcases List.mem_append.mp mem with inside | ends
    · exact (named part inside).noSlash
    · exact List.mem_singleton.mp ends ▸ noSlash
  rw [Place.segments_toPath_of_not_mem free (by simp)] at segments
  obtain ⟨rfl, ends⟩ := List.append_inj' segments rfl
  cases ends
  -- the names of the directory lead to it, and to nothing else
  have toDir : Leads d.root linkLimit [] directory linkLimit ([] ++ directory) :=
    .of_names rfl holds (fun _ => Node.noConfusion) named
  rw [Disk.start, if_pos (Place.isAbsolute_toPath _)] at leads
  have one := leads.follow_eq.symm.trans toDir.follow_eq
  rw [List.nil_append] at one
  cases one
  refine same.imp_left ?_
  rintro rfl
  exact hasFile_iff.mpr ⟨content, there⟩

/-- The file of a place is found by its path. -/
theorem isFile_toPath (wellFormed : d.WellFormed) {place : Place} (isFile : d.hasFile place = true) :
    d.isFile place.toPath = true := by
  obtain ⟨content, there⟩ := hasFile_iff.mp isFile
  exact isFile_iff.mpr ⟨place, content, locate_toPath wellFormed there fun _ => Node.noConfusion, there⟩

/-- Where a file of an index is found, no other with the same name before its extension precedes it. -/
theorem precedes_sibling {root : Path} {start : Place} (wellFormed : d.WellFormed)
    (located : d.locate true root = .ok start) (isDir : d.hasDir start = true)
    (notDash : root.components ≠ [.name "-"]) {suffix : String} {names : Place} {stem e f : String}
    (ne : stem ≠ "") (listed : e ∈ Convention.sourceExtensions)
    (listed' : f ∈ Convention.sourceExtensions) (entered : names.Entered)
    (isFile : d.hasFile (start ++ names ++ [stem ++ "." ++ e]) = true)
    (isFile' : d.hasFile (start ++ names ++ [stem ++ "." ++ f]) = true)
    (found : (FileIndex.ofDisk d root).find? suffix =
      some (start ++ names ++ [stem ++ "." ++ e] : Place).toPath) (differ : f ≠ e) :
    Text.Shortlex e f := by
  have named := named_of_hasFile wellFormed isFile
  have named' := named_of_hasFile wellFormed isFile'
  obtain ⟨-, ⟨-, ends⟩, first⟩ :=
    (FileIndex.find?_eq_some_iff (spelledOnce_index wellFormed located isDir notDash)).mp found
  have mem : (start ++ names ++ [stem ++ "." ++ f] : Place).toPath ∈ (FileIndex.ofDisk d root).files :=
    (mem_index_iff wellFormed located isDir notDash).mpr
      ⟨names, _, isFile', entered, ⟨stem, f, ne, listed', rfl⟩, rfl⟩
  have ends' : FileIndex.EndsIn (start ++ names ++ [stem ++ "." ++ f] : Place).toPath
      (FileIndex.asked suffix) := by
    rw [FileIndex.EndsIn, Place.withoutExtension_toPath named ne
      (Path.spelling_of_sourceExtension listed).2.2] at ends
    rwa [FileIndex.EndsIn, Place.withoutExtension_toPath named' ne
      (Path.spelling_of_sourceExtension listed').2.2]
  have other : (start ++ names ++ [stem ++ "." ++ f] : Place).toPath ≠
      (start ++ names ++ [stem ++ "." ++ e] : Place).toPath := by
    intro same
    have places := Place.eq_of_same named' named (decide_eq_true (congrArg Path.components same))
    obtain ⟨-, last⟩ := List.append_inj' places rfl
    exact differ (String.append_right_inj _ |>.mp (List.cons.inj last).1)
  exact Text.shortlex_append_iff.mp ((Place.precedes_iff named named').mp (first _ mem ends' other))

/-- Where the extension of a file is left out, the extensions that are tried in turn lead to it, or to a file
or a link whose extension has priority. -/
theorem exists_picked (wellFormed : d.WellFormed) {stem e : String} (listed : e ∈ Convention.sourceExtensions)
    (isFile : d.hasFile (directory ++ [stem ++ "." ++ e]) = true) :
    ∃ f ∈ Convention.sourceExtensions,
      (Convention.resolveExtensions.map (directory ++ [stem] : Place).toPath.addExtension).find? d.isFile =
        some (directory ++ [stem ++ "." ++ f] : Place).toPath ∧
      (f = e ∨ [f, e].Sublist Convention.resolveExtensions) ∧
      (d.hasFile (directory ++ [stem ++ "." ++ f]) = true ∨
        d.IsLink (directory ++ [stem ++ "." ++ f] : Place).toPath) := by
  have picks : (Convention.resolveExtensions.map
      (directory ++ [stem] : Place).toPath.addExtension).find? d.isFile =
        (Convention.resolveExtensions.find? fun f =>
          d.isFile (directory ++ [stem ++ "." ++ f] : Place).toPath).map
        (directory ++ [stem] : Place).toPath.addExtension := by
    simp only [List.find?_map, Function.comp_def, Place.addExtension_toPath]
  have tried : e ∈ Convention.resolveExtensions := listed
  obtain ⟨f, listed', leads, picked, before⟩ := Convention.exists_first
    (fun f => d.isFile (directory ++ [stem ++ "." ++ f] : Place).toPath) tried (isFile_toPath wellFormed isFile)
  refine ⟨f, listed', ?_, before, ?_⟩
  · rw [picks, picked, Option.map_some, Place.addExtension_toPath]
  · have noSlash : '/' ∉ (stem ++ "." ++ f).toList := by
      have whole := (named_of_hasFile wellFormed isFile (stem ++ "." ++ e) (by simp)).noSlash
      have single := (Path.spelling_of_sourceExtension listed').2.1
      simp only [String.toList_append, List.mem_append, not_or] at whole ⊢
      exact ⟨whole.1, single⟩
    exact hasFile_or_isLink wellFormed (hasDir_of_hasFile isFile) noSlash leads

end Disk

/-- Which of the files that differ in their extensions only a search finds. All others have an extension that
is longer, or as long and further on in the alphabet. So where the directory and the name are given without
extension, the extensions that are tried in turn lead to the same file, or to a link, or to a file whose
extension has priority though the search prefers the other. -/
theorem Scope.siblings_of_searched {d : Disk} (wellFormed : d.WellFormed) {root : Path} {start : Place}
    (located : d.locate true root = .ok start) (isDir : d.hasDir start = true) {aliases : AliasMap}
    {importer : Path} {specifier : String} {r : Resolution}
    (resolved : resolve? ⟨d, aliases, .ofDisk d root⟩ importer specifier = some r)
    (searched : IsSearched ⟨d, aliases, .ofDisk d root⟩ specifier r) :
    ∃ (directory : Place) (stem e : String), stem ≠ "" ∧ e ∈ Convention.sourceExtensions ∧
      r.path = (directory ++ [stem ++ "." ++ e] : Place).toPath ∧
      d.hasFile (directory ++ [stem ++ "." ++ e]) = true ∧
      (∀ f ∈ Convention.sourceExtensions, d.hasFile (directory ++ [stem ++ "." ++ f]) = true → f ≠ e →
        Text.Shortlex e f) ∧
      ∃ f ∈ Convention.sourceExtensions,
        (Convention.resolveExtensions.map (directory ++ [stem] : Place).toPath.addExtension).find? d.isFile =
          some (directory ++ [stem ++ "." ++ f] : Place).toPath ∧
        (f = e ∨ d.IsLink (directory ++ [stem ++ "." ++ f] : Place).toPath ∨
          d.hasFile (directory ++ [stem ++ "." ++ f]) = true ∧ Convention.Overtakes e f) := by
  obtain ⟨suffix, found⟩ := exists_find?_of_isSearched resolved searched
  have notDash := Disk.components_ne_dash_of_mem_index (FileIndex.mem_of_find? found)
  obtain ⟨names, name, isFile, entered, ⟨stem, e, ne, listed, rfl⟩, spelled⟩ :=
    (Disk.mem_index_iff wellFormed located isDir notDash).mp (FileIndex.mem_of_find? found)
  rw [spelled] at found
  have first : ∀ f ∈ Convention.sourceExtensions,
      d.hasFile (start ++ names ++ [stem ++ "." ++ f]) = true → f ≠ e → Text.Shortlex e f := by
    intro f listed' isFile' differ
    exact Disk.precedes_sibling wellFormed located isDir notDash ne listed listed' entered isFile isFile' found differ
  obtain ⟨f, listed', picked, before, there⟩ := Disk.exists_picked wellFormed listed isFile
  refine ⟨start ++ names, stem, e, ne, listed, spelled, isFile, first, f, listed', picked, ?_⟩
  by_cases same : f = e
  · exact .inl same
  · rcases there with isFile' | isLink
    · have taken := (Convention.overtakes_iff e listed f listed').mpr
        ⟨before.resolve_left same, first f listed' isFile' same⟩
      exact .inr (.inr ⟨isFile', taken⟩)
    · exact .inr (.inl isLink)

/-! ## A file with types beside one without types -/

/-- A disk with two files that differ in their extensions, and a page elsewhere. -/
def Disk.twins : Disk := ⟨.dir [("app", .dir [("page.tsx", .file .empty)]),
  ("lib", .dir [("util.js", .file .empty), ("util.ts", .file .empty)])], []⟩

namespace Disk

/-- The disk of twins is well formed. -/
theorem wellFormed_twins : twins.WellFormed := ⟨rfl, by decide⟩

/-- The files of the disk of twins. -/
theorem files_twins : twins.root.files = [["app", "page.tsx"], ["lib", "util.js"], ["lib", "util.ts"]] := by
  decide

/-- The root of the disk of twins is a place. -/
theorem locate_twins : twins.locate true ⟨"/"⟩ = .ok [] := by
  have there : twins.root.at? [] = some twins.root := rfl
  exact locate_toPath wellFormed_twins there fun _ => Node.noConfusion

/-- Beside the page there is nothing of the name. -/
theorem sourceAt?_twins : twins.sourceAt? ⟨"/app/util"⟩ = none := by
  have aliased : Scope.aliased ⟨"~", ⟨"/app/util"⟩⟩ "" = ⟨"/app/util"⟩ := rfl
  have elsewhere : ∀ place ∈ twins.root.files,
      ¬((Path.mk "/app/util").components <+: place.toPath.components) ∧
        ∀ e ∈ Convention.sourceExtensions,
          place.toPath.same ((Path.mk "/app/util").addExtension e) = false := by
    rw [files_twins]
    decide
  cases source : twins.sourceAt? ⟨"/app/util"⟩ with
  | none => rfl
  | some p =>
    rw [← aliased] at source
    obtain ⟨place, content, there, rfl⟩ := place_of_sourceAt? source
    obtain ⟨notBelow, notExtended⟩ := elsewhere place (Node.mem_files_of_at? there)
    rcases Scope.prefix_of_sourceAt?_aliased wellFormed_twins (by decide) (by decide) (by decide) (by decide)
      (by decide) source with below | ⟨-, e, listed, same⟩
    · exact absurd below notBelow
    · cases (notExtended e listed).symm.trans same

/-- By its suffix the later extension is found. -/
theorem find?_twins : (FileIndex.ofDisk twins ⟨"/"⟩).find? "./util" = some ⟨"/lib/util.js"⟩ := by
  have isDir : twins.hasDir [] = true := rfl
  have mem : ⟨"/lib/util.js"⟩ ∈ (FileIndex.ofDisk twins ⟨"/"⟩).files := by
    have entered : Place.Entered ["lib"] := Place.entered_cons.mpr ⟨by decide, Place.entered_nil⟩
    exact (mem_index_iff wellFormed_twins locate_twins isDir (by decide)).mpr
      ⟨["lib"], "util.js", rfl, entered, ⟨"util", "js", by decide⟩, by decide⟩
  have first : ∀ place ∈ twins.root.files, FileIndex.EndsIn place.toPath ["util"] →
      place.toPath ≠ ⟨"/lib/util.js"⟩ → FileIndex.Precedes ⟨"/lib/util.js"⟩ place.toPath := by
    rw [files_twins]
    decide
  refine (FileIndex.find?_eq_some_iff (spelledOnce_index wellFormed_twins locate_twins isDir (by decide))).mpr
    ⟨by decide, ⟨mem, by decide⟩, fun q listed ends => ?_⟩
  obtain ⟨names, name, isFile, -, -, rfl⟩ := (mem_index_iff wellFormed_twins locate_twins isDir (by decide)).mp listed
  obtain ⟨content, there⟩ := hasFile_iff.mp isFile
  exact first _ (Node.mem_files_of_at? there) ends

end Disk

namespace Scope

/-- A specifier that nothing else resolves is resolved by its suffix. -/
theorem resolve?_twins : resolve? ⟨.twins, .empty, .ofDisk .twins ⟨"/"⟩⟩ ⟨"/app/page.tsx"⟩ "./util" =
    some ⟨⟨"/lib/util.js"⟩, .search⟩ := by
  have beside : (((Path.mk "/app/page.tsx").parent?.getD ⟨"."⟩).join ⟨"./util"⟩).clean = ⟨"/app/util"⟩ := by
    decide
  exact resolve?_of_find? (by decide) (beside ▸ Disk.sourceAt?_twins) Disk.find?_twins

/-- A search finds the file without types, though the extension of the other has priority and an import that is
read from the importing file on would lead to it. -/
theorem search_prefers_untyped :
    resolve? ⟨.twins, .empty, .ofDisk .twins ⟨"/"⟩⟩ ⟨"/app/page.tsx"⟩ "./util" =
      some ⟨Place.toPath (["lib"] ++ ["util" ++ "." ++ "js"]), .search⟩ ∧
    Disk.twins.hasFile (["lib"] ++ ["util" ++ "." ++ "ts"]) = true ∧
    ["ts", "js"].Sublist Convention.resolveExtensions ∧
    Disk.twins.sourceAt? (Place.toPath (["lib"] ++ ["util"])) =
      some (Place.toPath (["lib"] ++ ["util" ++ "." ++ "ts"])) := by
  have spelled : Place.toPath (["lib"] ++ ["util" ++ "." ++ "js"]) = ⟨"/lib/util.js"⟩ := by decide
  have there : Disk.twins.root.at? ["lib", "util.ts"] = some (.file .empty) := rfl
  have extended : (Place.toPath (["lib"] ++ ["util"])).addExtension "ts" = Place.toPath ["lib", "util.ts"] := by
    decide
  have located : Disk.twins.locate true ((Place.toPath (["lib"] ++ ["util"])).addExtension "ts") =
      .ok ["lib", "util.ts"] := by
    rw [extended]
    exact Disk.locate_toPath Disk.wellFormed_twins there fun _ => Node.noConfusion
  refine ⟨spelled ▸ resolve?_twins, by decide, by decide, ?_⟩
  exact Disk.sourceAt?_of_addExtension (by decide) located there

/-- On the disk of twins the extension that is tried first is overtaken. -/
theorem siblings_of_searched_twins :
    resolve? ⟨.twins, .empty, .ofDisk .twins ⟨"/"⟩⟩ ⟨"/app/page.tsx"⟩ "./util" =
      some ⟨⟨"/lib/util.js"⟩, .search⟩ ∧
    ∃ (directory : Place) (stem e : String),
      ⟨"/lib/util.js"⟩ = (directory ++ [stem ++ "." ++ e] : Place).toPath ∧
      ∀ f ∈ Convention.sourceExtensions, Disk.twins.hasFile (directory ++ [stem ++ "." ++ f]) = true →
        f ≠ e → Text.Shortlex e f := by
  obtain ⟨directory, stem, e, -, -, spelled, -, first, -⟩ := siblings_of_searched Disk.wellFormed_twins
    Disk.locate_twins (by decide) resolve?_twins (.inl rfl)
  exact ⟨resolve?_twins, directory, stem, e, spelled, first⟩

end Scope

end RouteTrees
