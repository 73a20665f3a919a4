import Mathlib.Data.List.Nodup
import Mathlib.Data.List.Triplewise
import RouteTrees.Project.Alias

/-!
# The order in which aliases are tried

Sorting aliases keeps those of one stem in the order in which they were given, so sorting a part of them is
sorting all and taking that part. Of aliases with one pattern the first that was given is the one that counts.
A later one is dropped where nothing stands between the two once they are sorted, and only there: if an alias
of the same stem and of another pattern was given in between, the map holds the pattern twice, and there is
an import that meets it twice.
-/

namespace RouteTrees

/-! ## Sorting a part of a list -/

section Sorting

variable {α : Type} {le : α → α → Bool} (trans : ∀ a b c, le a b = true → le b c = true → le a c = true)
  (total : ∀ a b, (le a b || le b a) = true)
include trans total

/-- What stands first before sorting is put in front of all that it does not come after. -/
theorem mergeSort_cons_eq (a : α) (l : List α) : (a :: l).mergeSort le =
    (l.mergeSort le).filter (fun b => !le a b) ++ a :: (l.mergeSort le).filter (fun b => le a b) := by
  obtain ⟨before, behind, whole, rest, first⟩ := List.mergeSort_cons trans total a l
  have sorted := List.pairwise_mergeSort trans total (a :: l)
  rw [whole] at sorted
  have later : ∀ b ∈ behind, le a b = true :=
    (List.pairwise_cons.mp (List.pairwise_append.mp sorted).2.1).1
  have notBehind : behind.filter (fun b => !le a b) = [] := by
    apply List.filter_eq_nil_iff.mpr
    intro b mem
    simp [later b mem]
  have notBefore : before.filter (fun b => le a b) = [] := by
    apply List.filter_eq_nil_iff.mpr
    intro b mem
    simpa using first b mem
  rw [whole, rest, List.filter_append, List.filter_append, notBehind, notBefore,
    List.filter_eq_self.mpr first, List.filter_eq_self.mpr later, List.append_nil, List.nil_append]

/-- Sorting keeps the order of what the order does not tell apart, so a part of a list may be taken before
or after. -/
theorem filter_mergeSort (q : α → Bool) (l : List α) :
    (l.mergeSort le).filter q = (l.filter q).mergeSort le := by
  induction l with
  | nil => simp
  | cons a l ih =>
    by_cases taken : q a = true
    · rw [mergeSort_cons_eq trans total, List.filter_append, List.filter_cons_of_pos taken,
        List.filter_comm q, List.filter_comm q, ih, List.filter_cons_of_pos taken,
        mergeSort_cons_eq trans total]
    · obtain ⟨before, behind, whole, rest, -⟩ := List.mergeSort_cons trans total a l
      rw [whole, List.filter_append, List.filter_cons_of_neg taken, ← List.filter_append, ← rest, ih,
        List.filter_cons_of_neg taken]

end Sorting

/-! ## The order of aliases -/

namespace Alias

/-- An alias precedes another by a longer stem, or by an earlier one of the same length. -/
theorem precedes_iff {a b : Alias} : a.precedes b = true ↔ b.stem.utf8ByteSize < a.stem.utf8ByteSize ∨
    a.stem.utf8ByteSize = b.stem.utf8ByteSize ∧ a.stem ≤ b.stem := by
  simp [precedes]

/-- Precedence is transitive. -/
theorem precedes_trans (a b c : Alias) (first : a.precedes b = true) (second : b.precedes c = true) :
    a.precedes c = true := by
  rw [precedes_iff] at first second ⊢
  rcases first with longer | ⟨same, le⟩
  · left
    omega
  · rcases second with longer | ⟨same', le'⟩
    · left
      omega
    · exact .inr ⟨same.trans same', String.le_trans le le'⟩

/-- Of two aliases one precedes the other. -/
theorem precedes_total (a b : Alias) : (a.precedes b || b.precedes a) = true := by
  rw [Bool.or_eq_true, precedes_iff, precedes_iff]
  rcases Nat.lt_trichotomy a.stem.utf8ByteSize b.stem.utf8ByteSize with shorter | same | longer
  · exact .inr (.inl shorter)
  · rcases String.le_total a.stem b.stem with le | le
    · exact .inl (.inr ⟨same, le⟩)
    · exact .inr (.inr ⟨same.symm, le⟩)
  · exact .inl (.inl longer)

/-- Aliases of which neither is tried before the other have one stem. -/
theorem stem_eq_of_precedes {a b : Alias} (first : a.precedes b = true) (second : b.precedes a = true) :
    a.stem = b.stem := by
  rw [precedes_iff] at first second
  rcases first with longer | ⟨same, le⟩
  · omega
  · rcases second with longer | ⟨-, le'⟩
    · omega
    · exact String.le_antisymm le le'

theorem precedes_of_stem_eq {a b : Alias} (same : a.stem = b.stem) : a.precedes b = true := by
  rw [precedes_iff, same]
  exact .inr ⟨rfl, String.le_refl _⟩

theorem stem_eq_of_pattern_eq {a b : Alias} (same : a.pattern = b.pattern) : a.stem = b.stem := by
  rw [stem, stem, same]

end Alias

namespace AliasMap

open Alias

/-- Some aliases in the order in which they are tried. -/
def sorted (aliases : List Alias) : List Alias := aliases.mergeSort Alias.precedes

theorem pairwise_sorted (aliases : List Alias) :
    (sorted aliases).Pairwise fun a b => a.precedes b = true :=
  List.pairwise_mergeSort precedes_trans precedes_total aliases

theorem filter_sorted (q : Alias → Bool) (aliases : List Alias) :
    (sorted aliases).filter q = sorted (aliases.filter q) :=
  filter_mergeSort precedes_trans precedes_total q aliases

/-- Aliases of one stem are tried in the order in which they were given. -/
theorem filter_stem_sorted (stem : String) (aliases : List Alias) :
    (sorted aliases).filter (fun a => a.stem = stem) = aliases.filter fun a => a.stem = stem := by
  rw [filter_sorted]
  apply List.mergeSort_of_pairwise
  apply List.pairwise_of_forall_mem_list
  intro a mem b mem'
  apply precedes_of_stem_eq
  have first := of_decide_eq_true (List.mem_filter.mp mem).2
  have second := of_decide_eq_true (List.mem_filter.mp mem').2
  exact first.trans second.symm

/-! ## What is dropped -/

/-- As long as the pattern is not that of the one kept before, the first alias of a pattern stays. -/
theorem find?_dropRepeats {pattern : String} {last : Option String} (other : last ≠ some pattern)
    (aliases : List Alias) :
    (dropRepeats last aliases).find? (fun a => a.pattern = pattern) =
      aliases.find? fun a => a.pattern = pattern := by
  induction aliases generalizing last with
  | nil => rfl
  | cons a rest ih =>
    rw [dropRepeats]
    by_cases same : a.pattern = pattern
    · have kept : last ≠ some a.pattern := same ▸ other
      rw [if_neg kept]
      simp [same]
    · have differs : some a.pattern ≠ some pattern := by simpa using same
      split
      · simpa [List.find?_cons, same] using ih other
      · simpa [List.find?_cons, same] using ih differs

/-- A pattern is declared if some alias of that pattern is found. -/
theorem mem_patterns_iff {pattern : String} {aliases : List Alias} :
    pattern ∈ aliases.map Alias.pattern ↔
      (aliases.find? fun a => a.pattern = pattern).isSome = true := by
  simp

/-- Leaving out neighbours of one pattern loses no pattern. -/
theorem mem_dropRepeats_iff {pattern : String} {last : Option String} (other : last ≠ some pattern)
    (aliases : List Alias) :
    pattern ∈ (dropRepeats last aliases).map Alias.pattern ↔ pattern ∈ aliases.map Alias.pattern := by
  rw [mem_patterns_iff, mem_patterns_iff, find?_dropRepeats other]

/-- Nothing is dropped where all patterns differ. -/
theorem dropRepeats_eq_self {last : Option String} {aliases : List Alias}
    (differ : (aliases.map Alias.pattern).Nodup) (other : ∀ p ∈ last, p ∉ aliases.map Alias.pattern) :
    dropRepeats last aliases = aliases := by
  induction aliases generalizing last with
  | nil => rfl
  | cons a rest ih =>
    obtain ⟨first, later⟩ := List.nodup_cons.mp differ
    have kept : last ≠ some a.pattern := by
      intro same
      exact other a.pattern same List.mem_cons_self
    rw [dropRepeats, if_neg kept, ih later]
    intro p same
    cases same
    exact first

/-- No pattern is left twice if between two aliases of one pattern there is none of another, neither before
the first that has the pattern of the one kept last. -/
theorem nodup_dropRepeats_iff (last : Option String) (aliases : List Alias) :
    (((dropRepeats last aliases).map Alias.pattern).Nodup ∧
        ∀ p ∈ last, p ∉ (dropRepeats last aliases).map Alias.pattern) ↔
      aliases.Triplewise (fun a b c => c.pattern = a.pattern → b.pattern = a.pattern) ∧
        ∀ p ∈ last, aliases.Pairwise fun b c => c.pattern = p → b.pattern = p := by
  induction aliases generalizing last with
  | nil => simp [dropRepeats]
  | cons a rest ih =>
    -- the pattern kept last goes along, for a repetition is told by it
    have kept := ih (some a.pattern)
    simp only [Option.mem_some_iff, forall_eq'] at kept
    rw [List.triplewise_cons, dropRepeats]
    by_cases repeated : last = some a.pattern
    · subst repeated
      simp only [if_true, Option.mem_some_iff, forall_eq', List.pairwise_cons, kept]
      constructor
      · rintro ⟨triples, pairs⟩
        exact ⟨⟨pairs, triples⟩, fun _ _ _ => trivial, pairs⟩
      · rintro ⟨⟨pairs, triples⟩, -⟩
        exact ⟨triples, pairs⟩
    · -- what was kept last is not met again if no alias has its pattern, since `a` has another
      have later : ∀ p ∈ last, p ∉ a.pattern :: (dropRepeats (some a.pattern) rest).map Alias.pattern ↔
          (a :: rest).Pairwise fun b c => c.pattern = p → b.pattern = p := by
        intro p isLast
        have differs : some a.pattern ≠ some p := fun same => repeated (same ▸ isLast)
        have absent : p ∉ a.pattern :: (dropRepeats (some a.pattern) rest).map Alias.pattern ↔
            ∀ c ∈ rest, c.pattern ≠ p := by
          rw [List.mem_cons, mem_dropRepeats_iff differs, List.mem_map]
          grind
        rw [absent, List.pairwise_cons]
        constructor
        · intro none
          refine ⟨fun c mem same => absurd same (none c mem), ?_⟩
          apply List.pairwise_of_forall_mem_list
          intro b _ c mem same
          exact absurd same (none c mem)
        · rintro ⟨first, -⟩ c mem same
          exact differs (congrArg some (first c mem same))
      rw [if_neg repeated, List.map_cons, List.nodup_cons, and_comm (a := a.pattern ∉ _), kept,
        forall₂_congr later, and_comm (a := rest.Pairwise _)]

/-! ## Patterns of a map -/

/-- Whether between two aliases of one pattern there is none that has the same stem and another pattern. -/
def Unscattered (aliases : List Alias) : Prop :=
  aliases.Triplewise fun a b c => c.pattern = a.pattern → b.stem = a.stem → b.pattern = a.pattern

/-- What holds of any three in their order is what holds of each sublist of three. -/
theorem triplewise_iff_forall_sublist {p : Alias → Alias → Alias → Prop} {aliases : List Alias} :
    aliases.Triplewise p ↔ ∀ a b c, [a, b, c].Sublist aliases → p a b c := by
  induction aliases with
  | nil => simp
  | cons first rest ih =>
    rw [List.triplewise_cons, List.pairwise_iff_forall_sublist, ih]
    constructor
    · rintro ⟨pairs, triples⟩ a b c sub
      rcases List.cons_sublist_cons'.mp sub with later | ⟨rfl, others⟩
      · exact triples a b c later
      · exact pairs others
    · intro all
      refine ⟨fun {b c} sub => all first b c (sub.cons_cons first), fun a b c sub => ?_⟩
      exact all a b c (sub.cons first)

/-- Aliases of one stem stand in a sorted list as they were given. -/
theorem sublist_sorted_iff {part aliases : List Alias} {stem : String} (same : ∀ a ∈ part, a.stem = stem) :
    part.Sublist (sorted aliases) ↔ part.Sublist aliases := by
  have whole : part.filter (fun a => a.stem = stem) = part := by
    apply List.filter_eq_self.mpr
    intro a mem
    exact decide_eq_true (same a mem)
  constructor
  · intro sub
    have taken := sub.filter fun a => a.stem = stem
    rw [whole, filter_stem_sorted] at taken
    exact taken.trans List.filter_sublist
  · intro sub
    have taken := sub.filter fun a => a.stem = stem
    rw [whole, ← filter_stem_sorted] at taken
    exact taken.trans List.filter_sublist

/-- In the sorted list, repeated patterns stand together if nothing is scattered. -/
theorem triplewise_sorted_iff (aliases : List Alias) :
    (sorted aliases).Triplewise (fun a b c => c.pattern = a.pattern → b.pattern = a.pattern) ↔
      Unscattered aliases := by
  rw [Unscattered, triplewise_iff_forall_sublist, triplewise_iff_forall_sublist]
  constructor
  · intro all a b c sub same stem
    have stems : ∀ x ∈ [a, b, c], x.stem = a.stem := by
      simp [stem, stem_eq_of_pattern_eq same]
    exact all a b c ((sublist_sorted_iff stems).mpr sub) same
  · intro all a b c sub same
    have order := (pairwise_sorted aliases).sublist sub
    simp only [List.pairwise_cons, List.mem_cons, List.not_mem_nil, or_false, forall_eq_or_imp,
      forall_eq] at order
    -- `b` stands between two aliases of one stem, so it has that stem
    have back : b.precedes a = true :=
      precedes_trans b c a order.2.1 (precedes_of_stem_eq (stem_eq_of_pattern_eq same))
    have stem : b.stem = a.stem := stem_eq_of_precedes back order.1.1
    have stems : ∀ x ∈ [a, b, c], x.stem = a.stem := by
      simp [stem, stem_eq_of_pattern_eq same]
    exact all a b c ((sublist_sorted_iff stems).mp sub) same stem

/-- Patterns are kept once each if and only if nothing is scattered. -/
theorem nodup_patterns_iff (aliases : List Alias) :
    ((ofList aliases).aliases.map Alias.pattern).Nodup ↔ Unscattered aliases := by
  have left := nodup_dropRepeats_iff none (sorted aliases)
  simp only [Option.not_mem_none, false_imp_iff, implies_true, and_true] at left
  exact left.trans (triplewise_sorted_iff aliases)

/-- Aliases whose patterns differ are kept, in the order in which they are tried. -/
theorem aliases_ofList {aliases : List Alias} (differ : (aliases.map Alias.pattern).Nodup) :
    (ofList aliases).aliases = sorted aliases := by
  apply dropRepeats_eq_self
  · exact ((List.mergeSort_perm aliases Alias.precedes).map Alias.pattern).nodup_iff.mpr differ
  · exact fun p none => nomatch none

/-- The first alias of a pattern is the first among those of its stem. -/
theorem find?_filter_stem (aliases : List Alias) (pattern : String) :
    (aliases.filter fun a => a.stem = withoutStar pattern).find? (fun a => a.pattern = pattern) =
      aliases.find? fun a => a.pattern = pattern := by
  rw [List.find?_filter]
  congr
  funext a
  by_cases same : a.pattern = pattern
  · simp [same, stem]
  · simp [same]

/-- The first alias of a pattern that was given is the first that is tried. -/
theorem find?_ofList (aliases : List Alias) (pattern : String) :
    (ofList aliases).aliases.find? (fun a => a.pattern = pattern) =
      aliases.find? fun a => a.pattern = pattern := by
  have none : (none : Option String) ≠ some pattern := nofun
  have kept := find?_dropRepeats none (sorted aliases)
  rw [ofList, ← find?_filter_stem aliases, ← filter_stem_sorted, find?_filter_stem]
  exact kept

/-! ## Patterns that apply -/

theorem textAfter?_self (text : String) : textAfter? text text = some "" := by
  simp [textAfter?]

theorem strip?_stem (a : Alias) : a.strip? a.stem = some "" := by
  rw [strip?, textAfter?_self]
  simp

/-- The patterns that match a specifier are in the order of the map. -/
theorem patterns_matching (m : AliasMap) (specifier : String) :
    (m.matching specifier).map (fun found => found.1.pattern) =
      (m.aliases.filter fun a => (a.strip? specifier).isSome).map Alias.pattern := by
  rw [matching]
  induction m.aliases with
  | nil => rfl
  | cons a rest ih => cases found : a.strip? specifier <;> simp [found, ih]

/-- An import may meet a pattern twice if and only if the map holds it twice: the stem of the pattern does. -/
theorem nodup_matching_iff (m : AliasMap) :
    (∀ specifier, ((m.matching specifier).map fun found => found.1.pattern).Nodup) ↔
      (m.aliases.map Alias.pattern).Nodup := by
  simp only [patterns_matching]
  constructor
  · intro all
    rw [List.nodup_iff_sublist]
    intro pattern sub
    obtain ⟨twice, kept, both⟩ := List.sublist_map_iff.mp sub
    have same : ∀ a ∈ twice, a.pattern = pattern := by
      intro a mem
      have image : a.pattern ∈ [pattern, pattern] := both ▸ List.mem_map_of_mem mem
      simpa using image
    have applies : twice.filter (fun a => (a.strip? (withoutStar pattern)).isSome) = twice := by
      apply List.filter_eq_self.mpr
      intro a mem
      rw [← same a mem]
      exact congrArg Option.isSome (strip?_stem a)
    have met := (kept.filter fun a => (a.strip? (withoutStar pattern)).isSome).map Alias.pattern
    rw [applies, ← both] at met
    exact List.nodup_iff_sublist.mp (all (withoutStar pattern)) pattern met
  · intro nodup specifier
    exact (List.filter_sublist.map Alias.pattern).nodup nodup

/-- A map of aliases holds the patterns that were given and no others, and for each the target of the first
alias that was given for it. No pattern is held twice, and none is met twice by an import, if and only if no
alias of the same stem and of another pattern was given between two aliases of one pattern. -/
theorem patterns_of_ofList (aliases : List Alias) :
    (∀ pattern, pattern ∈ (ofList aliases).aliases.map Alias.pattern ↔
        pattern ∈ aliases.map Alias.pattern) ∧
      (∀ pattern, (ofList aliases).get? pattern =
        (aliases.find? fun a => a.pattern = pattern).map Alias.target) ∧
      (((ofList aliases).aliases.map Alias.pattern).Nodup ↔ Unscattered aliases) ∧
      ((∀ specifier, (((ofList aliases).matching specifier).map fun found => found.1.pattern).Nodup) ↔
        Unscattered aliases) := by
  refine ⟨fun pattern => ?_, fun pattern => ?_, nodup_patterns_iff aliases, ?_⟩
  · rw [mem_patterns_iff, find?_ofList, mem_patterns_iff]
  · rw [get?, find?_ofList]
  · rw [nodup_matching_iff, nodup_patterns_iff]

/-- Two aliases of one pattern, between which one of the same stem and another pattern was given. -/
def scatteredSample : List Alias := [⟨"a*", ⟨"/x"⟩⟩, ⟨"a", ⟨"/y"⟩⟩, ⟨"a*", ⟨"/z"⟩⟩]

/-- All three are kept, and an import meets the pattern of two of them twice. -/
theorem patterns_of_scattered :
    (ofList scatteredSample).aliases.map Alias.pattern = ["a*", "a", "a*"] ∧
      ((ofList scatteredSample).matching "a/b").map (fun found => found.1.pattern) =
        ["a*", "a", "a*"] := by
  have inOrder : scatteredSample.mergeSort Alias.precedes = scatteredSample :=
    List.mergeSort_of_pairwise (by decide)
  rw [ofList, inOrder]
  decide

end AliasMap

end RouteTrees
