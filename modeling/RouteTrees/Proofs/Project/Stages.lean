import Mathlib.Data.List.Perm.Subperm
import RouteTrees.Proofs.Project.Aliases
import RouteTrees.Proofs.Project.Precedence

/-!
# The stages of resolving an import

What an import refers to is found in stages, and what is added to a later stage does not change what an
earlier one has found. Aliases do not touch what is found without any; an alias that is shorter than the one
that led to a file is not tried before it; and an alias that does not apply is as if it were not there.
-/

namespace RouteTrees

/-! ## Parts of two lists -/

/-- A part of a list in which nothing was added is that part of the list before. -/
theorem filter_eq_of_added {α : Type} [DecidableEq α] {old new : List α} (sub : old.Sublist new)
    (nodup : new.Nodup) {q : α → Bool} (out : ∀ a ∈ new, a ∉ old → q a = false) :
    new.filter q = old.filter q := by
  have kept : new.filter q ⊆ old.filter q := by
    intro a mem
    obtain ⟨listed, taken⟩ := List.mem_filter.mp mem
    by_cases was : a ∈ old
    · exact List.mem_filter.mpr ⟨was, taken⟩
    · rw [out a listed was] at taken
      cases taken
  have le := ((nodup.filter q).subperm kept).length_le
  exact ((sub.filter q).eq_of_length_le le).symm

/-- What finds nothing can be left out before looking. -/
theorem findSome?_filter_of_none {α β : Type} {f : α → Option β} {q : α → Bool}
    (nothing : ∀ a, q a = false → f a = none) (l : List α) :
    (l.filter q).findSome? f = l.findSome? f := by
  induction l with
  | nil => rfl
  | cons a l ih =>
    by_cases taken : q a = true
    · rw [List.filter_cons_of_pos taken, List.findSome?_cons, List.findSome?_cons, ih]
    · have none := nothing a (by simpa using taken)
      rw [List.filter_cons_of_neg taken, List.findSome?_cons, none, ih]

namespace AliasMap

/-- Aliases with a long stem are tried before all others. -/
theorem sorted_eq_append (size : Nat) (aliases : List Alias) :
    sorted aliases = (sorted aliases).filter (fun a => size ≤ a.stem.utf8ByteSize) ++
      (sorted aliases).filter fun a => a.stem.utf8ByteSize < size := by
  have order := pairwise_sorted aliases
  generalize sorted aliases = l at order ⊢
  induction l with
  | nil => rfl
  | cons a rest ih =>
    obtain ⟨first, later⟩ := List.pairwise_cons.mp order
    by_cases long : size ≤ a.stem.utf8ByteSize
    · have notShort : ¬a.stem.utf8ByteSize < size := by omega
      simpa [long, notShort] using ih later
    · -- behind the first short stem all are short
      have short : ∀ b ∈ a :: rest, b.stem.utf8ByteSize < size := by
        intro b mem
        rcases List.mem_cons.mp mem with rfl | behind
        · omega
        · have before := Alias.precedes_iff.mp (first b behind)
          omega
      have none : (a :: rest).filter (fun a => size ≤ a.stem.utf8ByteSize) = [] := by
        apply List.filter_eq_nil_iff.mpr
        intro b mem
        have := short b mem
        simp only [decide_eq_true_eq]
        omega
      have all : (a :: rest).filter (fun a => a.stem.utf8ByteSize < size) = a :: rest := by
        apply List.filter_eq_self.mpr
        intro b mem
        simpa using short b mem
      rw [none, all, List.nil_append]

end AliasMap

namespace Alias

/-- An import to which an alias applies begins with the stem of the alias. -/
theorem stem_prefix_of_strip? {a : Alias} {specifier rest : String}
    (applies : a.strip? specifier = some rest) : a.stem.toList <+: specifier.toList := by
  unfold strip? at applies
  split at applies
  · cases applies
  · next behind =>
    unfold textAfter? at behind
    split at behind
    · next begins => exact List.isPrefixOf_iff_prefix.mp begins
    · cases behind

/-- Of two beginnings of one text the one with fewer characters has fewer bytes. -/
theorem utf8ByteSize_lt_of_length_lt {s t whole : String} (first : s.toList <+: whole.toList)
    (second : t.toList <+: whole.toList) (shorter : s.length < t.length) :
    s.utf8ByteSize < t.utf8ByteSize := by
  have le : s.toList.length ≤ t.toList.length := by
    simpa [String.length_toList] using Nat.le_of_lt shorter
  obtain ⟨more, joined⟩ := List.prefix_of_prefix_length_le first second le
  have same : t = s ++ String.ofList more := by
    apply String.toList_injective
    simp [joined]
  have some : String.ofList more ≠ "" := by
    intro none
    rw [same, none, String.append_empty] at shorter
    exact Nat.lt_irrefl _ shorter
  have positive := Nat.pos_of_ne_zero (mt String.utf8ByteSize_eq_zero_iff.mp some)
  rw [same, String.utf8ByteSize_append]
  omega

end Alias

namespace Scope

open AliasMap

variable {d : Disk} {index : FileIndex} {importer : Path} {specifier : String}

/-- What an import refers to through an alias, if the alias applies to it. -/
def answer? (d : Disk) (index : FileIndex) (specifier : String) (a : Alias) : Option Resolution :=
  (a.strip? specifier).bind fun rest => through? ⟨d, .empty, index⟩ a rest

/-- Aliases are asked one after the other. -/
theorem byAlias?_eq (d : Disk) (index : FileIndex) (m : AliasMap) (specifier : String) :
    byAlias? ⟨d, m, index⟩ specifier = m.aliases.findSome? (answer? d index specifier) := by
  rw [byAlias?, matching]
  dsimp only
  induction m.aliases with
  | nil => rfl
  | cons a rest ih =>
    rw [List.findSome?_cons, answer?]
    cases applies : a.strip? specifier with
    | none => rw [List.filterMap_cons_none (by rw [applies]; rfl), ih, Option.bind_none]
    | some left =>
      rw [List.filterMap_cons_some (by rw [applies]; rfl), List.findSome?_cons, ih, Option.bind_some]
      rfl

/-- What an alias answers is reported as found by it. -/
theorem via_of_answer? {a : Alias} {r : Resolution} (found : answer? d index specifier a = some r) :
    r.via = .byAlias a.pattern := by
  obtain ⟨rest, -, through⟩ := Option.bind_eq_some_iff.mp found
  exact via_of_through? through

/-- An alias that does not apply to an import finds nothing. -/
theorem answer?_of_not_applies {a : Alias} (out : (a.strip? specifier).isSome = false) :
    answer? d index specifier a = none := by
  have none : a.strip? specifier = none := by simpa using out
  rw [answer?, none, Option.bind_none]

/-! ## Adding aliases -/

section Added

variable {aliases more : List Alias}

/-- Two lists that hold the same aliases of those that apply, in the same order, find the same. -/
theorem findSome?_sorted_congr
    (same : more.filter (fun a => (a.strip? specifier).isSome) =
      aliases.filter fun a => (a.strip? specifier).isSome) :
    (sorted more).findSome? (answer? d index specifier) =
      (sorted aliases).findSome? (answer? d index specifier) := by
  rw [← findSome?_filter_of_none fun _ => answer?_of_not_applies,
    ← findSome?_filter_of_none (fun _ => answer?_of_not_applies) (sorted aliases), filter_sorted,
    filter_sorted, same]

variable (sub : aliases.Sublist more) (differ : (more.map Alias.pattern).Nodup)
include sub differ

/-- Aliases that do not apply are as if they were not there. -/
theorem byAlias?_of_not_applies (out : ∀ a ∈ more, a ∉ aliases → a.strip? specifier = none) :
    byAlias? ⟨d, .ofList more, index⟩ specifier = byAlias? ⟨d, .ofList aliases, index⟩ specifier := by
  rw [byAlias?_eq, byAlias?_eq, aliases_ofList differ,
    aliases_ofList ((sub.map Alias.pattern).nodup differ)]
  apply findSome?_sorted_congr
  apply filter_eq_of_added sub (.of_map _ differ)
  intro a listed new
  rw [out a listed new, Option.isSome_none]

/-- What was found through an alias is still found if shorter aliases are added, shorter in characters or in
bytes. -/
theorem byAlias?_of_shorter {r : Resolution} {pattern : String}
    (found : byAlias? ⟨d, .ofList aliases, index⟩ specifier = some r) (via : r.via = .byAlias pattern)
    (shorter : ∀ a ∈ more, a ∉ aliases → a.stem.length < (withoutStar pattern).length ∨
      a.stem.utf8ByteSize < (withoutStar pattern).utf8ByteSize) :
    byAlias? ⟨d, .ofList more, index⟩ specifier = some r := by
  rw [byAlias?_eq, aliases_ofList ((sub.map Alias.pattern).nodup differ)] at found
  rw [byAlias?_eq, aliases_ofList differ]
  let size := (withoutStar pattern).utf8ByteSize
  -- the alias that led to the file
  have led : ∀ a, answer? d index specifier a = some r → a.stem = withoutStar pattern := by
    intro a answer
    have same := (via_of_answer? answer).symm.trans via
    cases same
    rfl
  obtain ⟨b, -, answer⟩ := List.exists_of_findSome?_eq_some found
  obtain ⟨rest, applies, -⟩ := Option.bind_eq_some_iff.mp answer
  have begins := led b answer ▸ Alias.stem_prefix_of_strip? applies
  -- of the aliases that are tried before the shorter ones, the same apply
  have same : ((sorted more).filter fun a => size ≤ a.stem.utf8ByteSize).findSome?
        (answer? d index specifier) =
      ((sorted aliases).filter fun a => size ≤ a.stem.utf8ByteSize).findSome?
        (answer? d index specifier) := by
    rw [filter_sorted, filter_sorted]
    apply findSome?_sorted_congr
    rw [List.filter_filter, List.filter_filter]
    apply filter_eq_of_added sub (.of_map _ differ)
    intro a listed new
    rw [Bool.and_eq_false_iff]
    cases applies : a.strip? specifier with
    | none => exact .inl rfl
    | some left =>
      have fewer : a.stem.utf8ByteSize < size := by
        rcases shorter a listed new with characters | bytes
        · exact Alias.utf8ByteSize_lt_of_length_lt (Alias.stem_prefix_of_strip? applies) begins characters
        · exact bytes
      exact .inr (by simpa using fewer)
  rw [sorted_eq_append size, List.findSome?_append] at found ⊢
  rw [same]
  rcases Option.or_eq_some_iff.mp found with first | ⟨-, second⟩
  · rw [first, Option.some_or]
  · obtain ⟨a, mem, answer⟩ := List.exists_of_findSome?_eq_some second
    have less := of_decide_eq_true (List.mem_filter.mp mem).2
    rw [led a answer] at less
    exact absurd less (Nat.lt_irrefl _)

end Added

/-! ## Stages -/

/-- What is found from the directory of the importing file on does not depend on aliases. -/
def direct? (d : Disk) (index : FileIndex) (importer : Path) (specifier : String) : Option Resolution :=
  if isRelative specifier then relative? ⟨d, .empty, index⟩ importer specifier else none

/-- A specifier is resolved directly or else by an alias. -/
theorem resolve?_eq_or (d : Disk) (m : AliasMap) (index : FileIndex) (importer : Path)
    (specifier : String) : resolve? ⟨d, m, index⟩ importer specifier =
      (direct? d index importer specifier).or (byAlias? ⟨d, m, index⟩ specifier) := by
  unfold resolve? direct? relative?
  dsimp only

/-- It does not say that it was found through an alias. -/
theorem via_of_direct? {r : Resolution} {pattern : String}
    (found : direct? d index importer specifier = some r) : r.via ≠ .byAlias pattern := by
  unfold direct? relative? at found
  split at found
  · split at found
    · cases found
      nofun
    · obtain ⟨p, -, rfl⟩ := Option.map_eq_some_iff.mp found
      nofun
  · cases found

/-- What an import refers to is found in stages, of which the later do not disturb the earlier. What is found
without aliases is found with any. What is found through an alias is still found if shorter aliases are
added, even where it was only found by a search and they lead straight to a file. And aliases that do not
apply to an import may be added to a list at any place. -/
theorem resolve?_stages (d : Disk) (index : FileIndex) (importer : Path) (specifier : String) :
    (∀ r, resolve? ⟨d, .empty, index⟩ importer specifier = some r →
      ∀ m, resolve? ⟨d, m, index⟩ importer specifier = some r) ∧
    ∀ aliases more : List Alias, aliases.Sublist more → (more.map Alias.pattern).Nodup →
      (∀ path pattern,
        resolve? ⟨d, .ofList aliases, index⟩ importer specifier = some ⟨path, .byAlias pattern⟩ →
        (∀ a ∈ more, a ∉ aliases → a.stem.length < (withoutStar pattern).length ∨
          a.stem.utf8ByteSize < (withoutStar pattern).utf8ByteSize) →
        resolve? ⟨d, .ofList more, index⟩ importer specifier = some ⟨path, .byAlias pattern⟩) ∧
      ((∀ a ∈ more, a ∉ aliases → a.strip? specifier = none) →
        resolve? ⟨d, .ofList more, index⟩ importer specifier =
          resolve? ⟨d, .ofList aliases, index⟩ importer specifier) := by
  refine ⟨fun r found m => ?_, fun aliases more sub differ => ⟨?_, fun out => ?_⟩⟩
  · have nothing : byAlias? ⟨d, .empty, index⟩ specifier = none := byAlias?_eq d index .empty specifier
    rw [resolve?_eq_or, nothing, Option.or_none] at found
    rw [resolve?_eq_or, found, Option.some_or]
  · intro path pattern found shorter
    rw [resolve?_eq_or] at found ⊢
    rcases Option.or_eq_some_iff.mp found with first | ⟨none, aliased⟩
    · exact absurd rfl (via_of_direct? first)
    · rw [none, Option.none_or]
      exact byAlias?_of_shorter sub differ aliased rfl shorter
  · rw [resolve?_eq_or, resolve?_eq_or, byAlias?_of_not_applies sub differ out]

end Scope

/-! ## An alias that leads straight to a file, and a longer one that does not -/

/-- A disk with a single file, to which an alias for everything leads. -/
def Disk.straight : Disk := ⟨.dir [("exact", .dir [("@nav.ts", .file .empty)])], []⟩

theorem Disk.wellFormed_straight : straight.WellFormed := ⟨rfl, by decide⟩

/-- Nothing is below other directories. -/
theorem Disk.sourceAt?_straight {directory : String} (absolute : (Path.mk directory).isAbsolute = true)
    (clean : (Path.mk directory).clean = ⟨directory⟩)
    (other : ¬(Path.mk directory).components <+: (Path.mk "/exact/@nav.ts").components) :
    straight.sourceAt? (Scope.aliased ⟨"@*", ⟨directory⟩⟩ "nav") = none := by
  cases source : straight.sourceAt? (Scope.aliased ⟨"@*", ⟨directory⟩⟩ "nav") with
  | none => rfl
  | some p =>
    obtain ⟨place, content, there, rfl⟩ := Disk.place_of_sourceAt? source
    have only : straight.root.files = [["exact", "@nav.ts"]] := by decide
    have mem := Node.mem_files_of_at? there
    rw [only, List.mem_singleton] at mem
    subst mem
    have spelled : Place.toPath ["exact", "@nav.ts"] = ⟨"/exact/@nav.ts"⟩ := by decide
    rcases Scope.prefix_of_sourceAt?_aliased (a := ⟨"@*", ⟨directory⟩⟩) wellFormed_straight
      (by decide) absolute clean (by decide) (by decide) source with below | ⟨none, -⟩
    · rw [spelled] at below
      exact absurd below other
    · exact absurd none (by decide)

namespace Scope

open AliasMap

/-- What is not found from the directory of the importing file on is looked for in the index. -/
theorem resolve?_of_find? {s : Scope} {importer p : Path} {specifier : String}
    (relative : isRelative specifier = true)
    (nothing : s.disk.sourceAt? (((importer.parent?.getD ⟨"."⟩).join ⟨specifier⟩).clean) = none)
    (found : s.index.find? specifier = some p) : s.resolve? importer specifier = some ⟨p, .search⟩ := by
  have searched : s.relative? importer specifier = some ⟨p, .search⟩ := by
    unfold relative?
    simp only [nothing, found, Option.map_some]
  rw [resolve?, if_pos relative, searched, Option.some_or]

/-- And what the only alias that applies does not lead to straight. -/
theorem resolve?_of_find?_rest {s : Scope} {importer p : Path} {specifier rest : String} {a : Alias}
    (bare : isRelative specifier = false) (matching : s.aliases.matching specifier = [(a, rest)])
    (nothing : s.disk.sourceAt? (aliased a rest) = none) (found : s.index.find? rest = some p) :
    s.resolve? importer specifier = some ⟨p, .byAlias a.pattern⟩ := by
  have through : s.through? a rest = some ⟨p, .byAlias a.pattern⟩ := by
    unfold through?
    simp only [nothing, found, Option.map_some]
  rw [resolve?, bare, if_neg Bool.false_ne_true, Option.none_or, byAlias?, matching, List.findSome?_cons]
  simp only [through]

/-- An index that holds a file which the longer alias is found to mean by a search. -/
def indexSample : FileIndex := ⟨[⟨"/lib/nav.ts"⟩]⟩

/-- Aliases leave what a relative specifier finds alone, and of two that apply the longer is asked first. -/
theorem resolve?_stages_sample :
    (resolve? ⟨.straight, .empty, indexSample⟩ ⟨"/app/page.ts"⟩ "./nav" =
        some ⟨⟨"/lib/nav.ts"⟩, .search⟩ ∧
      resolve? ⟨.straight, .ofList [⟨".*", ⟨"/exact"⟩⟩], indexSample⟩ ⟨"/app/page.ts"⟩ "./nav" =
        some ⟨⟨"/lib/nav.ts"⟩, .search⟩) ∧
    resolve? ⟨.straight, .ofList [⟨"*", ⟨"/exact"⟩⟩], indexSample⟩ ⟨"/app/page.ts"⟩ "@nav" =
        some ⟨⟨"/exact/@nav.ts"⟩, .byAlias "*"⟩ ∧
    resolve? ⟨.straight, .ofList [⟨"*", ⟨"/exact"⟩⟩, ⟨"@*", ⟨"/src"⟩⟩], indexSample⟩ ⟨"/app/page.ts"⟩ "@nav" =
        some ⟨⟨"/lib/nav.ts"⟩, .byAlias "@*"⟩ ∧
    resolve? ⟨.straight, .ofList [⟨"@*", ⟨"/src"⟩⟩, ⟨"@navigation", ⟨"/exact"⟩⟩], indexSample⟩
        ⟨"/app/page.ts"⟩ "@nav" = some ⟨⟨"/lib/nav.ts"⟩, .byAlias "@*"⟩ := by
  have searched : indexSample.find? "nav" = some ⟨"/lib/nav.ts"⟩ := by decide
  have app : aliased ⟨"@*", ⟨"/app"⟩⟩ "nav" =
      ((((Path.mk "/app/page.ts").parent?).getD ⟨"."⟩).join ⟨"./nav"⟩).clean := by decide
  have beside : Disk.straight.sourceAt? (aliased ⟨"@*", ⟨"/app"⟩⟩ "nav") = none :=
    Disk.sourceAt?_straight (by decide) (by decide) (by decide)
  have below : Disk.straight.sourceAt? (aliased ⟨"@*", ⟨"/src"⟩⟩ "nav") = none :=
    Disk.sourceAt?_straight (by decide) (by decide) (by decide)
  have there : Disk.straight.root.at? ["exact", "@nav.ts"] = some (.file .empty) := rfl
  have single : ∀ a, (ofList [a]).aliases = [a] := fun a => by
    rw [aliases_ofList (by simp), sorted, List.mergeSort_singleton]
  have relative : resolve? ⟨.straight, .empty, indexSample⟩ ⟨"/app/page.ts"⟩ "./nav" =
      some ⟨⟨"/lib/nav.ts"⟩, .search⟩ := by
    have begins : isRelative "./nav" = true := by decide
    have dotted : indexSample.find? "./nav" = some ⟨"/lib/nav.ts"⟩ := by decide
    exact resolve?_of_find? begins (app ▸ beside) dotted
  have led : resolve? ⟨.straight, .ofList [⟨"@*", ⟨"/src"⟩⟩], indexSample⟩ ⟨"/app/page.ts"⟩ "@nav" =
      some ⟨⟨"/lib/nav.ts"⟩, .byAlias "@*"⟩ := by
    have matching : matching (.ofList [⟨"@*", ⟨"/src"⟩⟩]) "@nav" = [(⟨"@*", ⟨"/src"⟩⟩, "nav")] := by
      rw [AliasMap.matching, single]
      decide
    have bare : isRelative "@nav" = false := by decide
    exact resolve?_of_find?_rest (a := ⟨"@*", ⟨"/src"⟩⟩) bare matching below searched
  obtain ⟨first, -⟩ := resolve?_stages .straight indexSample ⟨"/app/page.ts"⟩ "./nav"
  obtain ⟨-, later⟩ := resolve?_stages .straight indexSample ⟨"/app/page.ts"⟩ "@nav"
  obtain ⟨shorter, -⟩ := later [⟨"@*", ⟨"/src"⟩⟩] [⟨"*", ⟨"/exact"⟩⟩, ⟨"@*", ⟨"/src"⟩⟩] (by decide)
    (by decide)
  obtain ⟨-, out⟩ := later [⟨"@*", ⟨"/src"⟩⟩] [⟨"@*", ⟨"/src"⟩⟩, ⟨"@navigation", ⟨"/exact"⟩⟩] (by decide)
    (by decide)
  refine ⟨⟨relative, first _ relative _⟩, ?_, shorter _ _ led (by decide), ?_⟩
  · have matching : matching (.ofList [⟨"*", ⟨"/exact"⟩⟩]) "@nav" = [(⟨"*", ⟨"/exact"⟩⟩, "@nav")] := by
      rw [AliasMap.matching, single]
      decide
    exact resolve?_of_extended (a := ⟨"*", ⟨"/exact"⟩⟩) Disk.wellFormed_straight (by decide) matching
      (by decide) (by decide) (by decide) there
  · exact (out (by decide)).trans led

end Scope

end RouteTrees
