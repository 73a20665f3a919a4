import RouteTrees.Proofs.Path.Names
import RouteTrees.Proofs.Tree.Reach

/-!
# What imports are resolved to

An import is resolved to the place of a file. That the file is called like a source file follows from how it
was looked for, as long as it is called as the path by which it was found. A link by another name breaks
that, and so does an extension that was added to no name.
-/

namespace RouteTrees

/-! ## What a file is called -/

namespace Disk

variable {d : Disk} {p : Path} {place : Place} {content : ByteArray}

/-- Whether a path is that of a link: what it leads to may be called otherwise. -/
def IsLink (d : Disk) (p : Path) : Prop :=
  ∃ place target, d.locate false p = .ok place ∧ d.root.at? place = some (.link target)

/-- A path to a file ends in a name. It is the name of the file in the directory to which the path leads
before, unless it is that of a link. -/
theorem exists_name_of_file (located : d.locate true p = .ok place)
    (there : d.root.at? place = some (.file content)) : ∃ before name between above,
      p.segments = before ++ [name] ∧ Path.isIdle name = false ∧ name ≠ ".." ∧
        Leads d.root linkLimit (d.start p) before between above ∧
        (place = above ++ [name] ∨ d.IsLink p) := by
  obtain ⟨ne, free, left, leads⟩ := locate_iff.mp located
  obtain ⟨before, name, segments⟩ := (List.eq_nil_or_concat p.segments).resolve_left p.segments_ne_nil
  rw [List.concat_eq_append] at segments
  rw [segments] at leads
  obtain ⟨between, mid, toMid, last⟩ := leads.split
  have noDir : ∀ entries, d.root.at? place ≠ some (.dir entries) := fun _ isDir => by
    cases there.symm.trans isDir
  refine ⟨before, name, between, mid, segments, ?_⟩
  -- only a name leads from a directory to a file
  cases last with
  | idle isDir _ arrived =>
    cases arrived
    exact absurd isDir (noDir _)
  | up isDir arrived =>
    cases arrived
    obtain ⟨above, isDir⟩ := Leads.isDir_dropLast isDir
    exact absurd isDir (noDir _)
  | into _ busy notUp _ _ _ arrived =>
    cases arrived
    exact ⟨Bool.eq_false_iff.mpr busy, notUp, toMid, .inl rfl⟩
  | @link budget _ _ _ _ _ entries target isDir busy notUp short isLink _ _ =>
    refine ⟨Bool.eq_false_iff.mpr busy, notUp, toMid, .inr ⟨mid ++ [name], target, ?_, ?_⟩⟩
    · refine locate_iff_follow.mpr ⟨ne, free, ?_⟩
      rw [segments, toMid.follow_append (.inr (List.cons_ne_nil _ _)), follow, isDir]
      simp only [busy, notUp, short, isLink, Bool.false_eq_true, if_false, List.isEmpty_nil, Bool.not_false,
        Bool.and_self, if_true]
    · rw [Node.at?_append_singleton isDir, isLink]

/-- A file is called as a path to it, unless that is the path of a link. -/
theorem fileName?_canonical (wellFormed : d.WellFormed) (located : d.locate true p = .ok place)
    (there : d.root.at? place = some (.file content)) (notLink : ¬d.IsLink p) :
    (d.canonical p).fileName? = p.fileName? := by
  obtain ⟨before, name, between, above, segments, busy, notUp, -, same⟩ :=
    exists_name_of_file located there
  have spelled := same.resolve_right notLink
  have named := Place.named_of_at? wellFormed there
  have ne : place ≠ [] := spelled ▸ List.append_ne_nil_of_right_ne_nil above (List.cons_ne_nil name [])
  have segments' : place.toPath.segments = above ++ [name] :=
    (Place.segments_toPath named ne).trans spelled
  rw [canonical_of_locate located, Path.fileName?_of_segments segments' busy notUp,
    Path.fileName?_of_segments segments busy notUp]

/-- An index file joined to a path is called like itself. -/
theorem isSource_join_index (ne : p.text ≠ "") {file : String} (listed : file ∈ Convention.indexFiles) :
    (p.join ⟨file⟩).isSource = true := by
  obtain ⟨noSlash, busy, notUp, isSource⟩ := Path.spelling_of_indexFile listed
  have single : (Path.mk file).segments = [] ++ [file] := Path.segments_of_not_mem noSlash
  obtain ⟨before, -, joined⟩ := Path.segments_join ne (Path.not_isAbsolute_of_not_mem noSlash)
  rw [single, List.nil_append] at joined
  have same : (p.join ⟨file⟩).fileName? = (Path.mk file).fileName? :=
    (Path.fileName?_of_segments joined busy notUp).trans
      (Path.fileName?_of_segments single busy notUp).symm
  exact (Path.isSource_eq_of_fileName? same).trans isSource

/-- A path means what the first of the extensions makes of it, if it is not called like a source file. -/
theorem sourceAt?_of_addExtension (notSource : p.isSource = false)
    (located : d.locate true (p.addExtension "ts") = .ok place)
    (there : d.root.at? place = some (.file content)) : d.sourceAt? p = some place.toPath := by
  have isFile : d.isFile (p.addExtension "ts") = true := isFile_iff.mpr ⟨_, _, located, there⟩
  simp only [sourceAt?, candidates, notSource, Convention.resolveExtensions, List.map_cons,
    Bool.false_eq_true, if_false, List.nil_append, List.cons_append, List.find?_cons, isFile,
    Option.map_some, canonical_of_locate located]

/-- Whether a path is called like a source file: by a name with such an extension, or by such an extension
alone. -/
def CalledSource (p : Path) : Prop :=
  p.isSource = true ∨ ∃ e ∈ Convention.sourceExtensions, p.fileName? = some ("." ++ e)

/-- The path of a directory is not empty. -/
theorem text_ne_of_isDir (isDir : d.isDir p = true) : p.text ≠ "" := by
  rw [Disk.isDir, node?] at isDir
  cases located : d.locate true p with
  | error e =>
    rw [located] at isDir
    cases isDir
  | ok place => exact (locate_iff.mp located).1

/-- A candidate for a path is the path as it is written, or with an extension, or an index file below it. -/
theorem cases_of_mem_candidates {q : Path} (mem : q ∈ d.candidates p) :
    (q = p ∧ p.isSource = true) ∨ (∃ e ∈ Convention.sourceExtensions, q = p.addExtension e) ∨
      ∃ file ∈ Convention.indexFiles, p.text ≠ "" ∧ q = p.join ⟨file⟩ := by
  rw [candidates, List.mem_append, List.mem_append] at mem
  rcases mem with (written | extended) | index
  · split at written
    · next isSource => exact .inl ⟨List.mem_singleton.mp written, isSource⟩
    · cases written
  · obtain ⟨e, listed, rfl⟩ := List.mem_map.mp extended
    exact .inr (.inl ⟨e, listed, rfl⟩)
  · split at index
    · next isDir =>
      obtain ⟨file, listed, rfl⟩ := List.mem_map.mp index
      exact .inr (.inr ⟨file, listed, text_ne_of_isDir isDir, rfl⟩)
    · cases index

/-- The candidates for a file are called like source files. -/
theorem calledSource_of_mem_candidates {q : Path} (mem : q ∈ d.candidates p) : CalledSource q := by
  rcases cases_of_mem_candidates mem with ⟨rfl, isSource⟩ | ⟨e, listed, rfl⟩ | ⟨file, listed, ne, rfl⟩
  · exact .inl isSource
  · exact (Path.isSource_addExtension p listed).imp_right fun called => ⟨e, listed, called⟩
  · exact .inl (isSource_join_index ne listed)

/-- A path that is called like a source file leads to one, if it is called by more than an extension and is
not that of a link. -/
theorem isSource_of_sourceAt? (wellFormed : d.WellFormed) {q : Path} (found : d.sourceAt? p = some q) :
    d.IsCanonicalFile q ∧ (q.isSource = true ∨ ∃ c, d.isFile c = true ∧ d.canonical c = q ∧
      (c.isSource = true ∧ d.IsLink c ∨
        ∃ e ∈ Convention.sourceExtensions, c.fileName? = some ("." ++ e))) := by
  refine ⟨place_of_sourceAt? found, ?_⟩
  obtain ⟨c, first, rfl⟩ := Option.map_eq_some_iff.mp found
  have isFile := List.find?_some first
  obtain ⟨place, content, located, there⟩ := isFile_iff.mp isFile
  rcases calledSource_of_mem_candidates (List.mem_of_find?_eq_some first) with isSource | called
  · by_cases isLink : d.IsLink c
    · exact .inr ⟨c, isFile, rfl, .inl ⟨isSource, isLink⟩⟩
    · have same := fileName?_canonical wellFormed located there isLink
      exact .inl ((Path.isSource_eq_of_fileName? same).trans isSource)
  · exact .inr ⟨c, isFile, rfl, .inr called⟩

end Disk

/-- The index of a project holds source files only, unless what it was made of is a link that is called like
one. -/
theorem FileIndex.isSource_of_mem_ofDisk {d : Disk} (wellFormed : d.WellFormed) {root p : Path}
    (mem : p ∈ (FileIndex.ofDisk d root).files) :
    p.isSource = true ∨ ∃ c, d.isFile c = true ∧ d.canonical c = p ∧ c.isSource = true ∧ d.IsLink c := by
  have sorted := Path.mem_of_mem_dropRepeats mem
  obtain ⟨source, listed, rfl⟩ := List.mem_map.mp (List.mem_mergeSort.mp sorted)
  have isSource : source.isSource = true := by
    obtain ⟨e, chosen, rfl⟩ := List.mem_map.mp (List.mem_mergeSort.mp listed)
    exact (Bool.and_eq_true_iff.mp (List.mem_filter.mp chosen).2).2
  obtain ⟨place, n, located, there, isFile⟩ := Disk.leadsTo_of_mem_sources wellFormed listed
  cases n with
  | link _ | dir _ => cases isFile
  | file content =>
    by_cases isLink : d.IsLink source
    · exact .inr ⟨source, Disk.isFile_iff.mpr ⟨_, _, located, there⟩, rfl, isSource, isLink⟩
    · have same := Disk.fileName?_canonical wellFormed located there isLink
      exact .inl ((Path.isSource_eq_of_fileName? same).trans isSource)

/-! ## What imports refer to -/

namespace Scope

/-- What is found through an alias says so. -/
theorem via_of_through? {s : Scope} {a : Alias} {rest : String} {r : Resolution}
    (through : s.through? a rest = some r) : r.via = .byAlias a.pattern := by
  unfold through? at through
  split at through
  · cases through
    rfl
  · obtain ⟨p, -, rfl⟩ := Option.map_eq_some_iff.mp through
    rfl

/-- What the first alias that applies stands for is what an import refers to, if it begins with no dot. -/
theorem resolve?_of_first {s : Scope} {importer p : Path} {specifier rest : String} {a : Alias}
    {others : List (Alias × String)} (bare : isRelative specifier = false)
    (matching : s.aliases.matching specifier = (a, rest) :: others)
    (source : s.disk.sourceAt? (aliased a rest) = some p) :
    s.resolve? importer specifier = some ⟨p, .byAlias a.pattern⟩ := by
  have through : s.through? a rest = some ⟨p, .byAlias a.pattern⟩ := by
    unfold through?
    simp only [source]
  rw [resolve?, bare, if_neg Bool.false_ne_true, Option.none_or, byAlias?, matching, List.findSome?_cons]
  simp only [through]

/-- An alias leads an import to the file whose place it spells with an extension, if without one it is not
called like a source file. -/
theorem resolve?_of_extended {s : Scope} (wellFormed : s.disk.WellFormed) {importer p : Path}
    {specifier rest : String} {a : Alias} {others : List (Alias × String)}
    (bare : isRelative specifier = false)
    (matching : s.aliases.matching specifier = (a, rest) :: others)
    (notSource : (aliased a rest).isSource = false) (meant : (aliased a rest).addExtension "ts" = p)
    {place : Place} (spelled : place.toPath = p) {content : ByteArray}
    (there : s.disk.root.at? place = some (.file content)) :
    s.resolve? importer specifier = some ⟨p, .byAlias a.pattern⟩ := by
  have located : s.disk.locate true ((aliased a rest).addExtension "ts") = .ok place := by
    rw [meant, ← spelled]
    exact Disk.locate_toPath wellFormed there fun _ => Node.noConfusion
  have source := Disk.sourceAt?_of_addExtension notSource located there
  exact resolve?_of_first bare matching (spelled ▸ source)

/-- An import is resolved to the canonical name of a file, and that is called like a source file, unless a
link so called leads to it, or a path whose last name is nothing but the extension of a source file. -/
theorem isSource_of_resolve?_ofDisk {d : Disk} (wellFormed : d.WellFormed) {aliases : AliasMap}
    {root importer : Path} {specifier : String} {r : Resolution}
    (resolved : resolve? ⟨d, aliases, .ofDisk d root⟩ importer specifier = some r) :
    d.IsCanonicalFile r.path ∧ (r.path.isSource = true ∨ ∃ c, d.isFile c = true ∧
      d.canonical c = r.path ∧ (c.isSource = true ∧ d.IsLink c ∨
        ∃ e ∈ Convention.sourceExtensions, c.fileName? = some ("." ++ e))) := by
  rcases isSource_of_resolve? resolved with ⟨p, source⟩ | indexed
  · exact Disk.isSource_of_sourceAt? wellFormed source
  · refine ⟨FileIndex.isCanonicalFile_of_mem_ofDisk wellFormed indexed, ?_⟩
    refine (FileIndex.isSource_of_mem_ofDisk wellFormed indexed).imp_right ?_
    rintro ⟨c, isFile, canonical, isSource, isLink⟩
    exact ⟨c, isFile, canonical, .inl ⟨isSource, isLink⟩⟩

/-- The sample page resolves to itself, which is a canonical source file. -/
theorem isSource_of_resolve?_ofDisk_sample :
    resolve? ⟨.sample, .empty, .ofDisk .sample ⟨"/"⟩⟩ ⟨"/page.ts"⟩ "./page" =
      some ⟨⟨"/page.ts"⟩, .relative⟩ ∧ Disk.sample.IsCanonicalFile ⟨"/page.ts"⟩ := by
  have resolved := resolve?_page Disk.holdsPage_sample .empty (.ofDisk .sample ⟨"/"⟩)
  exact ⟨resolved, (isSource_of_resolve?_ofDisk Disk.wellFormed_sample resolved).1⟩

end Scope

/-! ## Files that are called otherwise -/

/-- A disk with a style sheet, a link to it that is called like a module, and a file that is called by an
extension alone. -/
def Disk.misnamed : Disk := ⟨.dir [("a.css", .file .empty), ("a.ts", .link "a.css"),
  ("page.ts", .file .empty), ("ui", .dir [(".ts", .file .empty)])], []⟩

theorem Disk.wellFormed_misnamed : misnamed.WellFormed := ⟨rfl, by decide⟩

/-- A link leads an import to a style sheet, and an alias leads one to a file without extension. -/
theorem Scope.resolve?_misnamed :
    resolve? ⟨.misnamed, .empty, .ofDisk .misnamed ⟨"/"⟩⟩ ⟨"/page.ts"⟩ "./a.ts" =
      some ⟨⟨"/a.css"⟩, .relative⟩ ∧ (Path.mk "/a.css").isSource = false ∧
    resolve? ⟨.misnamed, ⟨[⟨"@/*", ⟨"/"⟩⟩]⟩, .ofDisk .misnamed ⟨"/"⟩⟩ ⟨"/page.ts"⟩ "@/ui/" =
      some ⟨⟨"/ui/.ts"⟩, .byAlias "@/*"⟩ ∧ (Path.mk "/ui/.ts").isSource = false := by
  refine ⟨?_, by decide, ?_, by decide⟩
  · have located : Disk.misnamed.locate true ⟨"/a.ts"⟩ = .ok ["a.css"] := by
      have segments : (Path.mk "/a.ts").segments = ["a.ts"] := by decide
      have target : (Path.mk "a.css").segments ++ [] = ["a.css"] := by decide
      have start : Disk.misnamed.start ⟨"/a.ts"⟩ = [] := if_pos (by decide)
      have relative : (Path.mk "a.css").isAbsolute = false := by decide
      refine Disk.locate_iff.mpr ⟨by decide, by decide, 39, ?_⟩
      rw [segments, start]
      refine .link rfl (by decide) (by decide) (by decide) rfl (by decide) ?_
      rw [target, relative]
      exact .into rfl (by decide) (by decide) (by decide) rfl (fun _ => Node.noConfusion) .arrived
    have there : Disk.misnamed.root.at? ["a.css"] = some (.file .empty) := rfl
    have target : (((Path.mk "/page.ts").parent?.getD ⟨"."⟩).join ⟨"./a.ts"⟩).clean = ⟨"/a.ts"⟩ := by
      decide
    exact resolve?_of_locate (s := ⟨.misnamed, .empty, .ofDisk .misnamed ⟨"/"⟩⟩) (by decide) target
      (by decide) located there
  · have there : Disk.misnamed.root.at? ["ui", ".ts"] = some (.file .empty) := rfl
    have matching : AliasMap.matching ⟨[⟨"@/*", ⟨"/"⟩⟩]⟩ "@/ui/" = [(⟨"@/*", ⟨"/"⟩⟩, "ui/")] := by
      decide
    exact resolve?_of_extended (a := ⟨"@/*", ⟨"/"⟩⟩) Disk.wellFormed_misnamed (by decide) matching
      (by decide) (by decide) (by decide) there

end RouteTrees
