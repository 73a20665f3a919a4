import RouteTrees.Proofs.Path.Below
import RouteTrees.Proofs.Project.Resolving

/-!
# Where aliases lead

Without links a path leads to the place that it spells. So what is found through an alias is below the
directory that the alias stands for, or that directory with an extension, as long as what an import leaves
behind the stem is a relative path without steps up. A rest of another form is taken for a path of its own.
-/

namespace RouteTrees

/-! ## Disks without links -/

namespace Node

mutual

/-- Whether there is no link at or below a node. -/
def isLinkless : Node → Bool
  | file _ => true
  | link _ => false
  | dir es => areLinkless es

def areLinkless : List (String × Node) → Bool
  | [] => true
  | (_, n) :: rest => n.isLinkless && areLinkless rest

end

/-- What a directory without links holds is without links. -/
theorem isLinkless_of_lookup {es : List (String × Node)} {name : String} {n : Node}
    (linkless : areLinkless es = true) (found : es.lookup name = some n) : n.isLinkless = true := by
  induction es with
  | nil => cases found
  | cons e rest ih =>
    obtain ⟨key, c⟩ := e
    rw [areLinkless, Bool.and_eq_true] at linkless
    rw [List.lookup_cons] at found
    split at found
    · cases found
      exact linkless.1
    · exact ih linkless.2 found

/-- Below a node without links there are none. -/
theorem isLinkless_of_at? {n m : Node} {place : Place} (linkless : n.isLinkless = true)
    (found : n.at? place = some m) : m.isLinkless = true := by
  induction place generalizing n with
  | nil =>
    cases found
    exact linkless
  | cons name rest ih =>
    rw [at?] at found
    split at found
    · next c child =>
      cases n with
      | file _ | link _ => cases child
      | dir es =>
        rw [isLinkless] at linkless
        exact ih (isLinkless_of_lookup linkless child) found
    · cases found

end Node

namespace Disk

/-- Without links and steps up, segments lead where they say. -/
theorem Leads.eq_append {root : Node} {budget left : Nat} {place last : Place} {pending : List String}
    (linkless : root.isLinkless = true) (leads : Leads root budget place pending left last)
    (noUp : ".." ∉ pending) : last = place ++ pending.filter fun s => !Path.isIdle s := by
  induction leads with
  | arrived => exact (List.append_nil _).symm
  | idle _ idle _ ih =>
    rw [List.filter_cons_of_neg (by rw [idle]; decide)]
    exact ih fun mem => noUp (List.mem_cons_of_mem _ mem)
  | up => exact absurd List.mem_cons_self noUp
  | link there _ _ _ found =>
    have isLink := Node.isLinkless_of_at? linkless ((Node.at?_append_singleton there _).trans found)
    rw [Node.isLinkless] at isLink
    cases isLink
  | into _ busy _ _ _ _ _ ih =>
    rw [List.filter_cons_of_pos (by rw [Bool.eq_false_iff.mpr busy]; rfl),
      ih fun mem => noUp (List.mem_cons_of_mem _ mem), List.append_assoc, List.singleton_append]

/-- Without links, the canonical name of an absolute path without steps up says what the path says. -/
theorem components_canonical {d : Disk} (wellFormed : d.WellFormed) (linkless : d.root.isLinkless = true)
    {p : Path} {place : Place} (located : d.locate true p = .ok place) (absolute : p.isAbsolute = true)
    (noUp : ".." ∉ p.segments) : (d.canonical p).components = p.components := by
  obtain ⟨n, there, -⟩ := isPlain_of_locate located
  obtain ⟨-, -, left, leads⟩ := locate_iff.mp located
  have spelled := leads.eq_append linkless noUp
  rw [start, if_pos absolute, List.nil_append] at spelled
  have named := Place.named_of_at? wellFormed there
  rw [canonical_of_locate located, Place.components_toPath named, Path.components_of_isAbsolute absolute,
    ← spelled]
  exact congrArg _ (List.map_congr_left fun s mem => (Path.componentOf_of_ne (named s mem).notUp).symm)

/-! ## Candidates below a path -/

variable {d : Disk} {base p q : Path}

/-- The names of index files are relative and lead nowhere up. -/
theorem relative_of_indexFile {file : String} (listed : file ∈ Convention.indexFiles) :
    (Path.mk file).isAbsolute = false ∧ ".." ∉ (Path.mk file).segments := by
  obtain ⟨noSlash, -, notUp, -⟩ := Path.spelling_of_indexFile listed
  rw [Path.segments_of_not_mem noSlash, List.mem_singleton]
  exact ⟨Path.not_isAbsolute_of_not_mem noSlash, Ne.symm notUp⟩

/-- The candidates for what leads on from a path lead on from it. -/
theorem extends_of_mem_candidates (below : base.Extends p) (mem : q ∈ d.candidates p) :
    base.Extends q := by
  rcases cases_of_mem_candidates mem with ⟨rfl, -⟩ | ⟨e, listed, rfl⟩ | ⟨file, listed, ne, rfl⟩
  · exact below
  · exact below.addExtension listed
  · obtain ⟨relative, noUp⟩ := relative_of_indexFile listed
    exact below.join ne relative noUp

/-- Without links, what leads on from an absolute path without steps up is found below it. -/
theorem prefix_canonical (wellFormed : d.WellFormed) (linkless : d.root.isLinkless = true)
    (absolute : base.isAbsolute = true) (noUp : ".." ∉ base.segments) (below : base.Extends q)
    {place : Place} (located : d.locate true q = .ok place) :
    base.components <+: (d.canonical q).components := by
  rw [components_canonical wellFormed linkless located (below.absolute.trans absolute)
    (below.up_not_mem noUp)]
  exact below.components absolute

end Disk

/-! ## Aliases -/

namespace Scope

/-- What a rest of an import means below the target of an alias is found at or below the target, if the rest
is relative and has no step up. If nothing is left, it may also be the target with an extension. -/
theorem prefix_of_sourceAt?_aliased {d : Disk} (wellFormed : d.WellFormed)
    (linkless : d.root.isLinkless = true) {a : Alias} {rest : String} {p : Path}
    (absolute : a.target.isAbsolute = true) (clean : a.target.clean = a.target)
    (relative : (Path.mk rest).isAbsolute = false) (noUp : ".." ∉ (Path.mk rest).segments)
    (source : d.sourceAt? (aliased a rest) = some p) :
    a.target.components <+: p.components ∨
      rest = "" ∧ ∃ e ∈ Convention.sourceExtensions, p.same (a.target.addExtension e) = true := by
  obtain ⟨c, first, rfl⟩ := Option.map_eq_some_iff.mp source
  obtain ⟨place, content, located, -⟩ := Disk.isFile_iff.mp (List.find?_some first)
  have mem := List.mem_of_find?_eq_some first
  have noUpTarget := Path.up_not_mem_of_clean absolute clean
  have ne : a.target.text ≠ "" := by
    intro empty
    rw [Path.isAbsolute, empty] at absolute
    cases absolute
  rw [aliased] at mem
  split at mem
  · next empty =>
    rcases Disk.cases_of_mem_candidates mem with ⟨rfl, -⟩ | ⟨e, listed, rfl⟩ | ⟨file, listed, -, rfl⟩
    · have same := Disk.components_canonical wellFormed linkless located absolute noUpTarget
      exact .inl (same ▸ List.prefix_rfl)
    · have absolute' := (Path.isAbsolute_addExtension a.target e).trans absolute
      have noUp' := Path.up_not_mem_addExtension listed noUpTarget
      have same := Disk.components_canonical wellFormed linkless located absolute' noUp'
      exact .inr ⟨empty, e, listed, decide_eq_true same⟩
    · obtain ⟨relative, noUp⟩ := Disk.relative_of_indexFile listed
      have below := Path.extends_join ne relative noUp
      exact .inl (Disk.prefix_canonical wellFormed linkless absolute noUpTarget below located)
  · have below := Disk.extends_of_mem_candidates (Path.extends_join ne relative noUp) mem
    exact .inl (Disk.prefix_canonical wellFormed linkless absolute noUpTarget below located)

/-- Without links, an import that is found through an alias is found in the index, or at or below the target
of the alias, or is that target with an extension, as long as what is left of the import behind the stem is
a relative path without steps up. -/
theorem prefix_of_resolve?_byAlias {d : Disk} (wellFormed : d.WellFormed)
    (linkless : d.root.isLinkless = true) {aliases : AliasMap}
    (normal : ∀ a ∈ aliases.aliases, a.target.isAbsolute = true ∧ a.target.clean = a.target)
    {index : FileIndex} {importer : Path} {specifier pattern : String} {r : Resolution}
    (resolved : resolve? ⟨d, aliases, index⟩ importer specifier = some r)
    (via : r.via = .byAlias pattern) :
    ∃ a rest, (a, rest) ∈ aliases.matching specifier ∧ a.pattern = pattern ∧
      (r.path ∈ index.files ∨ ((Path.mk rest).isAbsolute = false → ".." ∉ (Path.mk rest).segments →
        a.target.components <+: r.path.components ∨
          rest = "" ∧ ∃ e ∈ Convention.sourceExtensions, r.path.same (a.target.addExtension e) = true)) := by
  rcases Option.or_eq_some_iff.mp resolved with relative | ⟨-, found⟩
  · -- what is found otherwise says so
    split at relative
    · unfold relative? at relative
      split at relative
      · cases relative
        cases via
      · obtain ⟨p, -, rfl⟩ := Option.map_eq_some_iff.mp relative
        cases via
    · cases relative
  · obtain ⟨⟨a, rest⟩, matching, through⟩ := List.exists_of_findSome?_eq_some found
    have mem : a ∈ aliases.aliases := by
      obtain ⟨b, listed, stripped⟩ := List.mem_filterMap.mp matching
      obtain ⟨_, -, same⟩ := Option.map_eq_some_iff.mp stripped
      cases same
      exact listed
    obtain ⟨absolute, clean⟩ := normal a mem
    refine ⟨a, rest, matching, ?_⟩
    replace through : Scope.through? ⟨d, aliases, index⟩ a rest = some r := through
    unfold through? at through
    split at through
    · next p source =>
      cases through
      cases via
      exact ⟨rfl, .inr fun relative noUp =>
        prefix_of_sourceAt?_aliased wellFormed linkless absolute clean relative noUp source⟩
    · obtain ⟨p, indexed, rfl⟩ := Option.map_eq_some_iff.mp through
      cases via
      exact ⟨rfl, .inl (FileIndex.mem_of_find? indexed)⟩

end Scope

/-! ## Two directories, of which one has aliases -/

/-- A disk with a directory that aliases stand for, and another one beside it. -/
def Disk.divided : Disk := ⟨.dir [("src", .dir [("a.ts", .file .empty)]),
  ("lib", .dir [("secret.ts", .file .empty)])], []⟩

theorem Disk.wellFormed_divided : divided.WellFormed := ⟨rfl, by decide⟩

namespace Scope

/-- On the divided disk an alias leads below its target. -/
theorem prefix_of_resolve?_byAlias_sample :
    resolve? ⟨.divided, ⟨[⟨"@/*", ⟨"/src"⟩⟩]⟩, .empty⟩ ⟨"/src/a.ts"⟩ "@/a" =
      some ⟨⟨"/src/a.ts"⟩, .byAlias "@/*"⟩ ∧
    ∃ a rest, (a, rest) ∈ AliasMap.matching ⟨[⟨"@/*", ⟨"/src"⟩⟩]⟩ "@/a" ∧ a.pattern = "@/*" ∧
      ((Path.mk rest).isAbsolute = false → ".." ∉ (Path.mk rest).segments →
        a.target.components <+: (Path.mk "/src/a.ts").components ∨
          rest = "" ∧ ∃ e ∈ Convention.sourceExtensions,
            (Path.mk "/src/a.ts").same (a.target.addExtension e) = true) := by
  have there : Disk.divided.root.at? ["src", "a.ts"] = some (.file .empty) := rfl
  have matching : AliasMap.matching ⟨[⟨"@/*", ⟨"/src"⟩⟩]⟩ "@/a" = [(⟨"@/*", ⟨"/src"⟩⟩, "a")] := by
    decide
  have resolved : resolve? ⟨.divided, ⟨[⟨"@/*", ⟨"/src"⟩⟩]⟩, .empty⟩ ⟨"/src/a.ts"⟩ "@/a" =
      some ⟨⟨"/src/a.ts"⟩, .byAlias "@/*"⟩ :=
    resolve?_of_extended (a := ⟨"@/*", ⟨"/src"⟩⟩) Disk.wellFormed_divided (by decide) matching
      (by decide) (by decide) (by decide) there
  have normal : ∀ a ∈ [(⟨"@/*", ⟨"/src"⟩⟩ : Alias)], a.target.isAbsolute = true ∧
      a.target.clean = a.target := by decide
  obtain ⟨a, rest, mem, pattern, found⟩ := prefix_of_resolve?_byAlias Disk.wellFormed_divided
    (by decide) normal resolved rfl
  exact ⟨resolved, a, rest, mem, pattern, found.resolve_left List.not_mem_nil⟩

/-- A rest that starts at the root, or that steps up, is not looked for below the target. -/
theorem resolve?_divided :
    resolve? ⟨.divided, ⟨[⟨"@*", ⟨"/src"⟩⟩]⟩, .empty⟩ ⟨"/src/a.ts"⟩ "@/lib/secret" =
      some ⟨⟨"/lib/secret.ts"⟩, .byAlias "@*"⟩ ∧
    resolve? ⟨.divided, ⟨[⟨"x*", ⟨"/src"⟩⟩]⟩, .empty⟩ ⟨"/src/a.ts"⟩ "x../lib/secret" =
      some ⟨⟨"/lib/secret.ts"⟩, .byAlias "x*"⟩ ∧
    ¬(Path.mk "/src").components <+: (Path.mk "/lib/secret.ts").components := by
  have there : Disk.divided.root.at? ["lib", "secret.ts"] = some (.file .empty) := rfl
  have spelled : Place.toPath ["lib", "secret.ts"] = ⟨"/lib/secret.ts"⟩ := by decide
  refine ⟨?_, ?_, by decide⟩
  · have matching : AliasMap.matching ⟨[⟨"@*", ⟨"/src"⟩⟩]⟩ "@/lib/secret" =
        [(⟨"@*", ⟨"/src"⟩⟩, "/lib/secret")] := by decide
    exact resolve?_of_extended (a := ⟨"@*", ⟨"/src"⟩⟩) Disk.wellFormed_divided (by decide) matching
      (by decide) (by decide) spelled there
  · have located : Disk.divided.locate true ((aliased ⟨"x*", ⟨"/src"⟩⟩ "../lib/secret").addExtension "ts") =
        .ok ["lib", "secret.ts"] := by
      have meant : (aliased ⟨"x*", ⟨"/src"⟩⟩ "../lib/secret").addExtension "ts" =
          ⟨"/src/../lib/secret.ts"⟩ := by decide
      have segments : (Path.mk "/src/../lib/secret.ts").segments = ["src", "..", "lib", "secret.ts"] := by
        decide
      have start : Disk.divided.start ⟨"/src/../lib/secret.ts"⟩ = [] := if_pos (by decide)
      rw [meant]
      refine Disk.locate_iff.mpr ⟨by decide, by decide, Disk.linkLimit, ?_⟩
      rw [segments, start]
      have named : Place.Named ["lib", "secret.ts"] := Place.named_of_at? Disk.wellFormed_divided there
      have onward : Disk.Leads Disk.divided.root Disk.linkLimit [] ["lib", "secret.ts"] Disk.linkLimit
          ["lib", "secret.ts"] := Disk.Leads.of_names rfl there (fun _ => Node.noConfusion) named
      exact .into rfl (by decide) (by decide) (by decide) rfl (fun _ => Node.noConfusion)
        (.up rfl onward)
    have source := Disk.sourceAt?_of_addExtension (by decide) located there
    have matching : AliasMap.matching ⟨[⟨"x*", ⟨"/src"⟩⟩]⟩ "x../lib/secret" =
        [(⟨"x*", ⟨"/src"⟩⟩, "../lib/secret")] := by decide
    rw [spelled] at source
    exact resolve?_of_first (a := ⟨"x*", ⟨"/src"⟩⟩) (by decide) matching source

end Scope

end RouteTrees
