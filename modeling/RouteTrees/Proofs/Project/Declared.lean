import RouteTrees.Proofs.Json.Fields
import RouteTrees.Proofs.Path.Below
import RouteTrees.Proofs.Project.Precedence
import RouteTrees.Proofs.Project.Shallowest

/-!
# The aliases that a configuration declares

A configuration declares an alias under each name whose value is a list that begins with a text, and under no
other; what is not declared well is left out and disturbs nothing else. The map holds each of these aliases once,
in one order: longer stems first, stems of one length by their text and patterns of one stem by theirs. Targets
are read from the directory of the configuration on and are clean.
-/

namespace RouteTrees

/-! ## What a configuration says -/

namespace Json

/-- What a configuration gives for a pattern. -/
def targets? (config : Json) (pattern : String) : Option Json :=
  ((config.field? "compilerOptions").bind (field? "paths")).bind (field? pattern)

/-- The directory from which a configuration reads targets, as it is written. -/
def baseUrl (config : Json) : String :=
  (((config.field? "compilerOptions").bind (field? "baseUrl")).bind text?).getD "."

end Json

namespace AliasMap

variable {directory base : Path} {config : Json}

/-- The first target is the first of a list, if that is a text. -/
theorem firstTarget?_eq_some_iff {targets : Json} {first : String} :
    firstTarget? targets = some first ↔ ∃ rest, targets = .list (.text first :: rest) := by
  cases targets with
  | list items =>
    cases items with
    | nil => simp [firstTarget?, Json.items?]
    | cons v rest => cases v <;> simp [firstTarget?, Json.items?, Json.text?]
  | _ => simp [firstTarget?, Json.items?]

/-- The declared aliases are those of the patterns with a first target. -/
theorem mem_declared_iff {fields : List (String × Json)} {a : Alias} :
    a ∈ declared base fields ↔ ∃ first rest, (a.pattern, .list (.text first :: rest)) ∈ fields ∧
      a.target = (base.join ⟨withoutStar first⟩).clean := by
  rw [declared, List.mem_filterMap]
  constructor
  · rintro ⟨⟨pattern, targets⟩, mem, found⟩
    simp only [Option.map_eq_some_iff] at found
    obtain ⟨first, begins, rfl⟩ := found
    obtain ⟨rest, rfl⟩ := firstTarget?_eq_some_iff.mp begins
    exact ⟨first, rest, mem, by dsimp only⟩
  · rintro ⟨first, rest, mem, target⟩
    have begins : firstTarget? (.list (.text first :: rest)) = some first :=
      firstTarget?_eq_some_iff.mpr ⟨rest, rfl⟩
    refine ⟨(a.pattern, .list (.text first :: rest)), mem, ?_⟩
    simp only [begins, Option.map_some, ← target]

/-- What is declared keeps the order of the names. -/
theorem pairwise_declared {fields : List (String × Json)} (order : Json.InOrder fields) :
    (declared base fields).Pairwise fun a b => a.pattern < b.pattern := by
  apply List.Pairwise.filterMap _ _ order
  rintro ⟨pattern, targets⟩ ⟨pattern', targets'⟩ less a found b found'
  simp only [Option.map_eq_some_iff] at found found'
  obtain ⟨-, -, rfl⟩ := found
  obtain ⟨-, -, rfl⟩ := found'
  exact less

/-- The map of a configuration is that of a list in which each pattern stands once, in order, and which holds
what the configuration gives. -/
theorem exists_declared (directory : Path) (config : Json) : ∃ aliases : List Alias,
    ofConfiguration directory config = ofList aliases ∧
      aliases.Pairwise (fun a b => a.pattern < b.pattern) ∧
      ∀ a, a ∈ aliases ↔ ∃ first rest, config.targets? a.pattern = some (.list (.text first :: rest)) ∧
        a.target = ((directory.join ⟨config.baseUrl⟩).join ⟨withoutStar first⟩).clean := by
  rw [ofConfiguration]
  cases options : config.field? "compilerOptions" with
  | none =>
    have nothing : empty = ofList [] := by simp [ofList, dropRepeats, empty]
    exact ⟨[], nothing, .nil, fun a => by simp [Json.targets?, options]⟩
  | some options' =>
    refine ⟨_, rfl, ?_⟩
    have base : config.baseUrl = ((options'.field? "baseUrl").bind Json.text?).getD "." := by
      rw [Json.baseUrl, options, Option.bind_some]
    have given (pattern : String) : config.targets? pattern =
        (options'.field? "paths").bind (Json.field? pattern) := by
      rw [Json.targets?, options, Option.bind_some]
    simp only [given, base, mem_declared_iff]
    cases paths : options'.field? "paths" with
    | none => simp [declared]
    | some paths' =>
      cases fields : paths'.fields? with
      | none => simp [fields, Json.fields?_eq_none fields, declared]
      | some taken =>
        obtain ⟨order, found⟩ := Json.fields?_spec fields
        simp only [Option.bind_some, fields, Option.getD_some, found]
        exact ⟨pairwise_declared order, fun _ => trivial⟩

end AliasMap

/-! ## The order of the map -/

namespace Alias

/-- Whether an alias is tried before another: by a longer stem, by the text of one as long, or by the text of the
pattern. -/
def Earlier (a b : Alias) : Prop :=
  b.stem.utf8ByteSize < a.stem.utf8ByteSize ∨ a.stem.utf8ByteSize = b.stem.utf8ByteSize ∧
    (a.stem < b.stem ∨ a.stem = b.stem ∧ a.pattern < b.pattern)

/-- What an alias makes of an import. With a star anything may follow the stem; without one nothing may, or
something behind a slash. -/
def Leaves (a : Alias) (specifier rest : String) : Prop :=
  if '*' ∈ a.pattern.toList then specifier = a.stem ++ rest
  else specifier = a.stem ∧ rest = "" ∨ specifier = a.stem ++ "/" ++ rest

/-- What a text has behind a front is what the front needs to become the text. -/
theorem textAfter?_eq_some_iff {front text rest : String} :
    textAfter? front text = some rest ↔ text = front ++ rest := by
  rw [textAfter?, ← String.toList_inj, String.toList_append]
  by_cases isFront : front.toList.isPrefixOf text.toList = true
  · obtain ⟨after, whole⟩ := List.isPrefixOf_iff_prefix.mp isFront
    rw [if_pos isFront, ← whole, List.drop_left, Option.some_inj, List.append_cancel_left_eq,
      ← String.toList_inj, String.toList_ofList]
  · rw [if_neg isFront]
    constructor
    · intro none
      cases none
    · intro whole
      exact absurd (List.isPrefixOf_iff_prefix.mpr ⟨_, whole.symm⟩) isFront

/-- An alias strips a specifier to what the specifier leaves of it. -/
theorem strip?_eq_some_iff {a : Alias} {specifier rest : String} :
    a.strip? specifier = some rest ↔ a.Leaves specifier rest := by
  rw [strip?, Leaves]
  cases after : textAfter? a.stem specifier with
  | none =>
    have other (more : String) : specifier ≠ a.stem ++ more := by
      intro whole
      rw [textAfter?_eq_some_iff.mpr whole] at after
      cases after
    have notStem : specifier ≠ a.stem := by simpa using other ""
    have notBehind : specifier ≠ a.stem ++ "/" ++ rest := by
      rw [String.append_assoc]
      exact other ("/" ++ rest)
    simp [other rest, notStem, notBehind]
  | some behind =>
    rw [textAfter?_eq_some_iff] at after
    subst after
    have star : a.isWildcard = true ↔ '*' ∈ a.pattern.toList := List.contains_iff_mem
    by_cases starred : '*' ∈ a.pattern.toList
    · simp [star.mpr starred, starred]
    · have single : a.isWildcard = false := Bool.eq_false_iff.mpr (mt star.mp starred)
      simp only [if_neg starred, single, Bool.false_or, decide_eq_true_eq, String.append_assoc,
        String.append_right_inj]
      by_cases empty : behind = ""
      · subst empty
        have some : ("/" : String) ++ rest ≠ "" := by simp [← String.toList_inj]
        simp [Ne.symm some, eq_comm]
      · simp [empty, textAfter?_eq_some_iff]

end Alias

namespace AliasMap

/-- Aliases that are given in the order of their patterns are kept, and are tried in one order. -/
theorem pairwise_earlier {aliases : List Alias} (order : aliases.Pairwise fun a b => a.pattern < b.pattern) :
    (sorted aliases).Pairwise Alias.Earlier := by
  rw [List.pairwise_iff_forall_sublist]
  intro a b sub
  have first : a.precedes b = true := List.pairwise_iff_forall_sublist.mp (pairwise_sorted aliases) sub
  rcases Alias.precedes_iff.mp first with longer | ⟨same, le⟩
  · exact .inl longer
  · refine .inr ⟨same, ?_⟩
    by_cases stem : a.stem = b.stem
    · -- sorting keeps the order of what has one stem
      have stems : ∀ x ∈ [a, b], x.stem = a.stem := by simp [stem]
      have given := (sublist_sorted_iff stems).mp sub
      exact .inr ⟨stem, List.pairwise_iff_forall_sublist.mp order given⟩
    · exact .inl (Json.lt_of_not_lt (Ne.symm stem) le)

/-- Patterns that ascend differ. -/
theorem nodup_of_pairwise {aliases : List Alias} (order : aliases.Pairwise fun a b => a.pattern < b.pattern) :
    (aliases.map Alias.pattern).Nodup := by
  rw [List.Nodup, List.pairwise_map]
  apply order.imp
  intro a b less same
  exact String.lt_irrefl _ (same ▸ less)

end AliasMap

/-! ## What an import meets -/

namespace AliasMap

variable {m : AliasMap} {specifier : String}

/-- What matches a specifier are the aliases, each with what is left of it. -/
theorem mem_matching_iff {a : Alias} {rest : String} :
    (a, rest) ∈ m.matching specifier ↔ a ∈ m.aliases ∧ a.Leaves specifier rest := by
  rw [matching, List.mem_filterMap, ← Alias.strip?_eq_some_iff]
  constructor
  · rintro ⟨b, listed, taken⟩
    obtain ⟨behind, applies, same⟩ := Option.map_eq_some_iff.mp taken
    cases same
    exact ⟨listed, applies⟩
  · rintro ⟨listed, applies⟩
    exact ⟨a, listed, by rw [applies, Option.map_some]⟩

/-- What an import meets is in the order of the map. -/
theorem pairwise_matching {q : Alias → Alias → Prop} (order : m.aliases.Pairwise q) :
    (m.matching specifier).Pairwise fun x y => q x.1 y.1 := by
  apply List.Pairwise.filterMap _ _ order
  intro a b before x taken y taken'
  obtain ⟨-, -, rfl⟩ := Option.map_eq_some_iff.mp taken
  obtain ⟨-, -, rfl⟩ := Option.map_eq_some_iff.mp taken'
  exact before

end AliasMap

/-! ## Where a configuration is -/

/-- Going down from an absolute path stays absolute. -/
theorem Path.isAbsolute_descend {base : Path} (absolute : base.isAbsolute = true) (names : List String) :
    (base.descend names).isAbsolute = true := by
  induction names generalizing base with
  | nil => exact absolute
  | cons name rest ih => exact ih (isAbsolute_join_of_isAbsolute absolute ⟨name⟩)

/-- The configuration of an absolute root is in a directory with an absolute path. -/
theorem Disk.exists_parent?_of_configuration? {d : Disk} (wellFormed : d.WellFormed) {root file : Path}
    (absolute : root.isAbsolute = true) (found : d.configuration? root = some file) :
    ∃ directory, file.parent? = some directory ∧ directory.isAbsolute = true := by
  have called : (∃ name, file.fileName? = some name) ∧ file.isAbsolute = true := by
    obtain ⟨name, isName, holds, -⟩ := (configuration?_eq_some_iff wellFormed).mp found
    obtain ⟨-, start, located, ⟨names, isFile, -, rfl⟩ | ⟨-, spelled, rfl⟩⟩ := holds
    · exact ⟨⟨name, fileName?_below wellFormed located isFile⟩, Path.isAbsolute_descend absolute _⟩
    · refine ⟨?_, absolute⟩
      cases called : file.fileName? with
      | some name => exact ⟨name, rfl⟩
      | none =>
        -- a path of that text is relative
        have text : file = ⟨name⟩ := congrArg Path.mk (by simpa [called] using spelled)
        rw [text] at absolute
        rcases isName with rfl | ⟨rfl, -⟩ <;> cases absolute
  obtain ⟨⟨name, called⟩, absolute'⟩ := called
  exact Path.exists_parent? absolute' called

/-- What becomes of a configuration that can be read, below an absolute root. Its aliases are one for each
pattern under which `paths` has a list that begins with a text, and no others. Each stands for the clean path of
that text without its first star, read from the base of the configuration on, so for an absolute path without
dots. They are held in one order, the longest stems first, a stem being the pattern without its first star. Those
that apply to an import are met in that order. -/
theorem AliasMap.declared_in_order {d : Disk} (wellFormed : d.WellFormed) {root file : Path} {text : String}
    {config : Json} (absolute : root.isAbsolute = true) (found : d.configuration? root = some file)
    (readable : d.readText file = .ok text) (parses : Json.ofConfiguration? text = some config) :
    ∃ directory, file.parent? = some directory ∧
      ((ofDisk d root).aliases.map Alias.pattern).Nodup ∧
      (∀ a, a ∈ (ofDisk d root).aliases ↔ ∃ first rest,
        config.targets? a.pattern = some (.list (.text first :: rest)) ∧
          a.target = ((directory.join ⟨config.baseUrl⟩).join ⟨.ofList (first.toList.erase '*')⟩).clean) ∧
      (∀ a ∈ (ofDisk d root).aliases, a.stem = .ofList (a.pattern.toList.erase '*') ∧
        a.target.isAbsolute = true ∧ ∀ s ∈ a.target.segments, s ≠ "." ∧ s ≠ "..") ∧
      (ofDisk d root).aliases.Pairwise Alias.Earlier ∧
      ∀ specifier,
        (∀ a rest, (a, rest) ∈ (ofDisk d root).matching specifier ↔
          a ∈ (ofDisk d root).aliases ∧ a.Leaves specifier rest) ∧
        ((ofDisk d root).matching specifier).Pairwise fun x y => x.1.Earlier y.1 := by
  obtain ⟨directory, parent, absolute'⟩ := d.exists_parent?_of_configuration? wellFormed absolute found
  obtain ⟨aliases, isMap, order, given⟩ := exists_declared directory config
  have whole : ofDisk d root = ofList aliases := by
    rw [ofDisk_eq, found, Option.map_some, Option.getD_some, ofFile, readable]
    simp only [parses, parent, Option.getD_some, isMap]
  -- each pattern is declared once, so that no alias is left out as a repetition
  have kept : (ofDisk d root).aliases = sorted aliases := by
    rw [whole, aliases_ofList (nodup_of_pairwise order)]
  have mem (a : Alias) : a ∈ (ofDisk d root).aliases ↔ a ∈ aliases := by
    rw [kept, sorted, List.mem_mergeSort]
  have earlier : (ofDisk d root).aliases.Pairwise Alias.Earlier := kept ▸ pairwise_earlier order
  refine ⟨directory, parent, ?_, fun a => (mem a).trans (given a), fun a listed => ?_, earlier,
    fun specifier => ⟨fun a rest => mem_matching_iff, pairwise_matching earlier⟩⟩
  · rw [kept]
    exact ((List.mergeSort_perm aliases Alias.precedes).map Alias.pattern).nodup_iff.mpr (nodup_of_pairwise order)
  · obtain ⟨first, rest, -, target⟩ := (given a).mp ((mem a).mp listed)
    rw [target]
    refine ⟨rfl, ?_⟩
    apply Path.noDots_of_isAbsolute
    exact Path.isAbsolute_join_of_isAbsolute (Path.isAbsolute_join_of_isAbsolute absolute' _) _

/-- A configuration with two patterns that are declared well and one without a target. -/
def aliasing : String :=
  "\x7b\"compilerOptions\": \x7b\"baseUrl\": \"src\", " ++
    "\"paths\": \x7b\"@/*\": [\"../*\"], \"~\": [], \"@ui/*\": [\"/ui\"]\x7d\x7d\x7d"

/-- A disk with nothing but a configuration. -/
def Disk.configured (text : String) : Disk := ⟨.dir [("tsconfig.json", .file text.toUTF8)], []⟩

theorem Disk.sameNames_configured (text text' : String) : (configured text).SameNames (configured text') := rfl

theorem Disk.wellFormed_configured (text : String) : (configured text).WellFormed :=
  (sameNames_configured "" text).wellFormed ⟨rfl, by decide⟩

/-- The configuration of a configured disk is found. -/
theorem Disk.configuration?_configured (text : String) :
    (configured text).configuration? ⟨"/"⟩ = some ⟨"/tsconfig.json"⟩ := by
  have same := (sameNames_configured text "").answer_eq (·.configuration? ⟨"/"⟩) fun d => d.configuration?_emptied _
  have spelled : Path.mk "/" = Place.toPath [] := by decide
  have there : (configured "").root.at? [] = some (.dir [("tsconfig.json", .file "".toUTF8)]) := rfl
  have named : (configured "").filesNamed ⟨"/"⟩ "tsconfig.json" = [⟨"/tsconfig.json"⟩] := by
    rw [filesNamed, walkable, spelled, walk_toPath (wellFormed_configured "") there]
    decide
  refine same.trans ?_
  rw [configuration?, findSome?_compilerConfigs, named]
  rfl

/-- The configuration of a configured disk is read. -/
theorem Disk.readText_configured (text : String) :
    (configured text).readText ⟨"/tsconfig.json"⟩ = .ok text := by
  have there : (configured text).root.at? ["tsconfig.json"] = some (.file text.toUTF8) := rfl
  have spelled : Path.mk "/tsconfig.json" = Place.toPath ["tsconfig.json"] := by decide
  rw [spelled]
  exact readText_toPath (wellFormed_configured text) _ there

/-- A disk with the configuration above. -/
def Disk.aliasing : Disk := configured RouteTrees.aliasing

/-- A target may step out of its base, a pattern without a target is left out, and the longer stem comes first. -/
theorem AliasMap.declared_in_order_aliasing :
    ⟨"@/*", ⟨"/"⟩⟩ ∈ (ofDisk .aliasing ⟨"/"⟩).aliases ∧ ⟨"@ui/*", ⟨"/ui"⟩⟩ ∈ (ofDisk .aliasing ⟨"/"⟩).aliases ∧
      (∀ a ∈ (ofDisk .aliasing ⟨"/"⟩).aliases, a.pattern ≠ "~") ∧
      (ofDisk .aliasing ⟨"/"⟩).aliases.Pairwise Alias.Earlier := by
  have parts : (Json.ofConfiguration? aliasing).map (fun config =>
      (config.baseUrl, (config.targets? "@/*").bind firstTarget?, (config.targets? "@ui/*").bind firstTarget?,
        (config.targets? "~").bind firstTarget?)) = some ("src", some "../*", some "/ui", none) := by
    decide +kernel
  obtain ⟨config, parses, same⟩ := Option.map_eq_some_iff.mp parts
  simp only [Prod.mk.injEq] at same
  obtain ⟨base, up, ui, none⟩ := same
  obtain ⟨directory, parent, -, given, -, order, -⟩ := declared_in_order (Disk.wellFormed_configured _)
    (by decide) (Disk.configuration?_configured _) (Disk.readText_configured _) parses
  have root : (Path.mk "/tsconfig.json").parent? = some ⟨"/"⟩ := by decide
  cases root.symm.trans parent
  obtain ⟨ups, isUp, first⟩ := Option.bind_eq_some_iff.mp up
  obtain ⟨uis, isUi, first'⟩ := Option.bind_eq_some_iff.mp ui
  obtain ⟨rest, rfl⟩ := firstTarget?_eq_some_iff.mp first
  obtain ⟨rest', rfl⟩ := firstTarget?_eq_some_iff.mp first'
  refine ⟨(given _).mpr ⟨_, rest, isUp, ?_⟩, (given _).mpr ⟨_, rest', isUi, ?_⟩, fun a listed same => ?_, order⟩
  · rw [base]
    decide
  · rw [base]
    decide
  · obtain ⟨text, more, isNone, -⟩ := (given a).mp listed
    rw [same] at isNone
    rw [isNone, Option.bind_some, firstTarget?_eq_some_iff.mpr ⟨more, rfl⟩] at none
    cases none

end RouteTrees
