import RouteTrees.Proofs.Disk.Place
import RouteTrees.Proofs.Text.Bytes

/-!
# Where segments lead

The ways on which following segments succeeds, as a relation: a derivation of `Leads` is the list of steps
that were taken. What has led somewhere can be followed further from there, so a name behind a path that
means a directory leads to what the directory holds under that name, whatever links were followed before.
-/

namespace RouteTrees.Disk

/-- The segments lead from one place to another, with so many links left to follow before and after. -/
inductive Leads (root : Node) : Nat → Place → List String → Nat → Place → Prop where
  | arrived {budget place} : Leads root budget place [] budget place
  | idle {budget place s rest left last entries} (there : root.at? place = some (.dir entries))
      (idle : Path.isIdle s = true) (leads : Leads root budget place rest left last) :
      Leads root budget place (s :: rest) left last
  | up {budget place rest left last entries} (there : root.at? place = some (.dir entries))
      (leads : Leads root budget place.dropLast rest left last) :
      Leads root budget place (".." :: rest) left last
  | link {budget place s rest left last entries target} (there : root.at? place = some (.dir entries))
      (busy : ¬Path.isIdle s = true) (notUp : s ≠ "..") (short : ¬s.utf8ByteSize > nameLimit)
      (found : entries.lookup s = some (.link target)) (ne : target ≠ "")
      (leads : Leads root budget (if (Path.mk target).isAbsolute then [] else place)
        ((Path.mk target).segments ++ rest) left last) :
      Leads root (budget + 1) place (s :: rest) left last
  | into {budget place s rest left last entries n} (there : root.at? place = some (.dir entries))
      (busy : ¬Path.isIdle s = true) (notUp : s ≠ "..") (short : ¬s.utf8ByteSize > nameLimit)
      (found : entries.lookup s = some n) (plain : ∀ target, n ≠ .link target)
      (leads : Leads root budget (place ++ [s]) rest left last) :
      Leads root budget place (s :: rest) left last

variable {root : Node} {budget left : Nat} {place last : Place} {pending : List String}

/-- Following succeeds only on a way that leads to where it ends, unless it stops at a link. -/
theorem leads_of_follow {final : Bool}
    (found : follow root final budget place pending = .ok (.found last))
    (stop : final = true ∨ ∀ target, root.at? last ≠ some (.link target)) :
    ∃ left, Leads root budget place pending left last := by
  fun_induction follow root final budget place pending with
  | case1 =>
    cases found
    exact ⟨_, .arrived⟩
  | case2 _ _ _ _ _ there idle ih =>
    obtain ⟨left, leads⟩ := ih found
    exact ⟨left, .idle there idle leads⟩
  | case3 _ _ _ _ there _ ih =>
    obtain ⟨left, leads⟩ := ih found
    exact ⟨left, .up there leads⟩
  | case4 | case5 | case6 | case8 | case9 | case12 | case13 => cases found
  | case7 _ _ _ _ _ there _ _ _ target isLink early =>
    cases found
    rw [Bool.and_eq_true, Bool.not_eq_true'] at early
    rcases stop with final | plain
    · exact absurd (final.symm.trans early.2) Bool.noConfusion
    · exact absurd ((Node.at?_append_singleton there _).trans isLink) (plain target)
  | case10 _ _ _ _ there busy notUp short _ isLink _ _ _ ne ih =>
    obtain ⟨left, leads⟩ := ih (by rw [dite_eq_ite]; exact found)
    rw [dite_eq_ite] at leads
    exact ⟨left, .link there busy notUp short isLink ne leads⟩
  | case11 _ _ _ _ _ there busy notUp short _ plain isNode ih =>
    obtain ⟨left, leads⟩ := ih found
    exact ⟨left, .into there busy notUp short isNode plain leads⟩

namespace Leads

/-- What comes behind segments that lead somewhere is followed from there. Links among the segments have
been followed, so a link at the end has to be one that is followed, unless something comes behind it. -/
theorem follow_append {final : Bool} {more : List String} (passes : final = true ∨ more ≠ [])
    (leads : Leads root budget place pending left last) :
    follow root final budget place (pending ++ more) = follow root final left last more := by
  induction leads with
  | arrived => rfl
  | idle there idle _ ih =>
    rw [List.cons_append, follow, there]
    simp only [idle, if_true]
    exact ih
  | up there _ ih =>
    rw [List.cons_append, follow, there]
    simp only [Path.isIdle, String.reduceEq, decide_false, Bool.or_self,
      Bool.false_eq_true, if_false, if_true]
    exact ih
  | @link _ _ _ rest _ _ _ _ there busy notUp short found ne _ ih =>
    have followed : ((rest ++ more).isEmpty && !final) = false := by
      rcases passes with final | ne
      · rw [final, Bool.not_true, Bool.and_false]
      · rw [List.isEmpty_eq_false_iff.mpr (List.append_ne_nil_of_right_ne_nil rest ne),
          Bool.false_and]
    rw [List.append_assoc] at ih
    rw [List.cons_append, follow, there]
    simp only [busy, notUp, short, found, ne, followed, Bool.false_eq_true, if_false]
    exact ih
  | into there busy notUp short found plain _ ih =>
    rw [List.cons_append, follow, there]
    simp only [busy, notUp, short, found, if_false]
    exact ih

/-- Where names lead, following them arrives. -/
theorem follow_eq (leads : Leads root budget place pending left last) :
    follow root true budget place pending = .ok (.found last) := by
  have all : follow root true budget place (pending ++ []) = follow root true left last [] :=
    leads.follow_append (.inl rfl)
  rw [List.append_nil] at all
  rw [all, follow]

/-- Names that lead to a place, and others that lead on from there, together lead on. -/
theorem append {more : List String} {rest : Nat} {end_ : Place}
    (first : Leads root budget place pending left last) (second : Leads root left last more rest end_) :
    Leads root budget place (pending ++ more) rest end_ := by
  induction first with
  | arrived => exact second
  | idle there idle _ ih => exact .idle there idle (ih second)
  | up there _ ih => exact .up there (ih second)
  | link there busy notUp short found ne _ ih =>
    exact .link there busy notUp short found ne (List.append_assoc _ _ _ ▸ ih second)
  | into there busy notUp short found plain _ ih =>
    exact .into there busy notUp short found plain (ih second)

/-- Where segments lead, the first of them lead on the way. -/
theorem split {more : List String} (leads : Leads root budget place (pending ++ more) left last) :
    ∃ between mid, Leads root budget place pending between mid ∧
      Leads root between mid more left last := by
  generalize whole : pending ++ more = all at leads
  induction leads generalizing pending with
  | arrived =>
    obtain ⟨rfl, rfl⟩ := List.append_eq_nil_iff.mp whole
    exact ⟨_, _, .arrived, .arrived⟩
  | idle there idle leads ih =>
    rcases List.append_eq_cons_iff.mp whole with ⟨rfl, rfl⟩ | ⟨_, rfl, rfl⟩
    · exact ⟨_, _, .arrived, .idle there idle leads⟩
    · obtain ⟨between, mid, first, second⟩ := ih rfl
      exact ⟨between, mid, .idle there idle first, second⟩
  | up there leads ih =>
    rcases List.append_eq_cons_iff.mp whole with ⟨rfl, rfl⟩ | ⟨_, rfl, rfl⟩
    · exact ⟨_, _, .arrived, .up there leads⟩
    · obtain ⟨between, mid, first, second⟩ := ih rfl
      exact ⟨between, mid, .up there first, second⟩
  | link there busy notUp short found ne leads ih =>
    rcases List.append_eq_cons_iff.mp whole with ⟨rfl, rfl⟩ | ⟨_, rfl, rfl⟩
    · exact ⟨_, _, .arrived, .link there busy notUp short found ne leads⟩
    · obtain ⟨between, mid, first, second⟩ := ih (List.append_assoc ..)
      exact ⟨between, mid, .link there busy notUp short found ne first, second⟩
  | into there busy notUp short found plain leads ih =>
    rcases List.append_eq_cons_iff.mp whole with ⟨rfl, rfl⟩ | ⟨_, rfl, rfl⟩
    · exact ⟨_, _, .arrived, .into there busy notUp short found plain leads⟩
    · obtain ⟨between, mid, first, second⟩ := ih rfl
      exact ⟨between, mid, .into there busy notUp short found plain first, second⟩

/-- An idle segment at the end can be left out. -/
theorem of_idle {s : String} (idle : Path.isIdle s = true)
    (leads : Leads root budget place (pending ++ [s]) left last) :
    Leads root budget place pending left last := by
  obtain ⟨between, mid, first, second⟩ := leads.split
  cases second with
  | idle _ _ rest =>
    cases rest
    exact first
  | up => exact absurd idle (by decide)
  | link _ busy | into _ busy => exact absurd idle busy

/-- Whether something is at a place, and no link. -/
def IsPlain (root : Node) (place : Place) : Prop :=
  ∃ n, root.at? place = some n ∧ ∀ target, n ≠ .link target

/-- Above a directory there is one. -/
theorem isDir_dropLast {entries : List (String × Node)}
    (there : root.at? place = some (.dir entries)) :
    ∃ above, root.at? place.dropLast = some (.dir above) := by
  rcases List.eq_nil_or_concat place with rfl | ⟨init, name, rfl⟩
  · exact ⟨_, there⟩
  · rw [List.concat_eq_append, Node.at?_append] at there
    obtain ⟨n, above, child⟩ := Option.bind_eq_some_iff.mp there
    cases n with
    | file _ | link _ => cases child
    | dir es => exact ⟨es, by rw [List.concat_eq_append, List.dropLast_concat, above]⟩

/-- What is above a directory is no link. -/
theorem isPlain_dropLast {entries : List (String × Node)}
    (there : root.at? place = some (.dir entries)) : IsPlain root place.dropLast := by
  obtain ⟨above, isDir⟩ := isDir_dropLast there
  exact ⟨_, isDir, fun _ => Node.noConfusion⟩

/-- Segments lead to something that is no link. -/
theorem isPlain (leads : Leads root budget place pending left last)
    (before : pending ≠ [] ∨ IsPlain root place) : IsPlain root last := by
  induction leads with
  | arrived => exact before.resolve_left fun ne => ne rfl
  | idle there _ _ ih => exact ih (.inr ⟨_, there, fun _ => Node.noConfusion⟩)
  | up there _ ih => exact ih (.inr (isPlain_dropLast there))
  | @link _ _ _ _ _ _ _ target _ _ _ _ _ _ _ ih =>
    refine ih (.inl (List.append_ne_nil_of_left_ne_nil ?_ _))
    exact Path.segments_ne_nil ⟨target⟩
  | into there _ _ _ found plain _ ih =>
    exact ih (.inr ⟨_, (Node.at?_append_singleton there _).trans found, plain⟩)

/-- Names lead to what is at their place, if no link is there. -/
theorem of_names {n m : Node} {names : Place} (there : root.at? place = some n)
    (below : n.at? names = some m) (plain : ∀ target, m ≠ .link target) (named : names.Named) :
    Leads root budget place names budget (place ++ names) := by
  induction names generalizing place n with
  | nil =>
    rw [List.append_nil]
    exact .arrived
  | cons name rest ih =>
    obtain ⟨isName, others⟩ := List.forall_mem_cons.mp named
    rw [Node.at?] at below
    split at below
    · next c child =>
      cases n with
      | file _ => cases child
      | link _ => cases child
      | dir entries =>
        have notLink : ∀ target, c ≠ .link target := by
          rintro target rfl
          cases rest with
          | nil => exact plain target (Option.some.inj below).symm
          | cons _ _ => cases below
        have next := ih ((Node.at?_append_singleton there name).trans child) below others
        rw [List.append_assoc, List.singleton_append] at next
        exact .into there (ne_true_of_eq_false isName.busy) isName.notUp (Nat.not_lt.mpr isName.short)
          child notLink next
    · cases below

end Leads

/-! ## Paths -/

/-- The place from which a path is followed. -/
def start (d : Disk) (p : Path) : Place := if p.isAbsolute then [] else d.current

/-- A path leads somewhere if it has a text that does not end early, and following it ends there. -/
theorem spot_eq_ok_iff {d : Disk} {final : Bool} {p : Path} {spot : Spot} :
    d.spot final p = .ok spot ↔ p.text ≠ "" ∧ '\x00' ∉ p.text.toList ∧
      follow d.root final linkLimit (d.start p) p.segments = .ok spot := by
  rw [Disk.spot, ← start]
  by_cases empty : p.text = ""
  · simp only [empty, if_true, reduceCtorEq, ne_eq, not_true_eq_false, false_and]
  by_cases ends : '\x00' ∈ p.text.toList
  · simp only [empty, ends, List.contains_iff_mem, if_true, if_false, reduceCtorEq,
      not_true_eq_false, false_and, and_false]
  simp only [empty, ends, List.contains_iff_mem, if_false, ne_eq, not_false_eq_true, true_and]

/-- A path is located where following it arrives. -/
theorem locate_eq_ok_iff {d : Disk} {final : Bool} {p : Path} {place : Place} :
    d.locate final p = .ok place ↔ d.spot final p = .ok (.found place) := by
  rw [locate]
  split <;> simp [*]

/-- A path means a place if it has a text that does not end early, and following it ends there. -/
theorem locate_iff_follow {d : Disk} {final : Bool} {p : Path} {place : Place} :
    d.locate final p = .ok place ↔ p.text ≠ "" ∧ '\x00' ∉ p.text.toList ∧
      follow d.root final linkLimit (d.start p) p.segments = .ok (.found place) :=
  locate_eq_ok_iff.trans spot_eq_ok_iff

/-- A path means the place that its segments lead to. -/
theorem locate_iff {d : Disk} {p : Path} {place : Place} : d.locate true p = .ok place ↔
    p.text ≠ "" ∧ '\x00' ∉ p.text.toList ∧
      ∃ left, Leads d.root linkLimit (d.start p) p.segments left place := by
  rw [locate_iff_follow]
  refine and_congr_right fun _ => and_congr_right fun _ => ⟨fun found => ?_, fun ⟨_, leads⟩ => ?_⟩
  · exact leads_of_follow found (.inl rfl)
  · exact leads.follow_eq

/-- A path leads to something that is no link. -/
theorem isPlain_of_locate {d : Disk} {p : Path} {place : Place}
    (located : d.locate true p = .ok place) : Leads.IsPlain d.root place := by
  obtain ⟨-, -, left, leads⟩ := locate_iff.mp located
  exact leads.isPlain (.inl p.segments_ne_nil)

/-- Whether a link at the end is followed makes no difference if there is none. -/
theorem locate_of_plain {d : Disk} {p : Path} {place : Place} {n : Node}
    (located : d.locate false p = .ok place) (there : d.root.at? place = some n)
    (plain : ∀ target, n ≠ .link target) : d.locate true p = .ok place := by
  obtain ⟨ne, free, found⟩ := locate_iff_follow.mp located
  have stop : ∀ target, d.root.at? place ≠ some (.link target) := fun target isLink =>
    plain target (Option.some.inj (there.symm.trans isLink))
  exact locate_iff.mpr ⟨ne, free, leads_of_follow found (.inr stop)⟩

/-- The last name is followed to what it is the name of, if that is no link. -/
theorem follow_name {root : Node} {budget : Nat} {place : Place} {entries : List (String × Node)}
    {name : String} {n : Node} (final : Bool) (there : root.at? place = some (.dir entries))
    (isName : IsName name) (found : entries.lookup name = some n) (plain : ∀ target, n ≠ .link target) :
    follow root final budget place [name] = .ok (.found (place ++ [name])) := by
  have busy : ¬Path.isIdle name = true := ne_true_of_eq_false isName.busy
  have short : ¬name.utf8ByteSize > nameLimit := Nat.not_lt.mpr isName.short
  rw [follow, there]
  simp only [busy, isName.notUp, short, found, Bool.false_eq_true, if_false]
  rw [follow]

/-- The path of a place means the place, if no link is there. -/
theorem locate_toPath {d : Disk} (wellFormed : d.WellFormed) {final : Bool} {place : Place} {n : Node}
    (there : d.root.at? place = some n) (plain : ∀ target, n ≠ .link target) :
    d.locate final place.toPath = .ok place := by
  have named := Place.named_of_at? wellFormed there
  have nonempty : place.toPath.text ≠ "" := by
    intro empty
    have absolute := place.isAbsolute_toPath
    rw [Path.isAbsolute, empty] at absolute
    cases absolute
  refine locate_iff_follow.mpr ⟨nonempty, Place.end_not_mem_toPath named, ?_⟩
  rw [start, if_pos place.isAbsolute_toPath]
  rcases List.eq_nil_or_concat place with rfl | ⟨above, name, rfl⟩
  · have segments : (Place.toPath []).segments = [""] := by decide
    cases isDir : d.root with
    | dir entries =>
      rw [segments, follow, Node.at?]
      simp only [Path.isIdle, decide_true, Bool.true_or, if_true]
      rw [follow]
    | file content | link target =>
      have rooted := wellFormed.rooted
      rw [isDir] at rooted
      cases rooted
  · rw [List.concat_eq_append] at there named ⊢
    have split := there
    rw [Node.at?_append] at split
    obtain ⟨m, above', child⟩ := Option.bind_eq_some_iff.mp split
    cases m with
    | file _ | link _ => cases child
    | dir entries =>
      have found := (Node.at?_append_singleton above' name).symm.trans there
      have toDir : Leads d.root linkLimit [] above linkLimit ([] ++ above) :=
        Leads.of_names rfl above' (fun _ => Node.noConfusion)
          fun name mem => named name (List.mem_append_left _ mem)
      rw [Place.segments_toPath named (List.append_ne_nil_of_right_ne_nil _ (List.cons_ne_nil _ _)),
        toDir.follow_append (.inr (List.cons_ne_nil _ _))]
      exact follow_name final above' (named name (List.mem_append_right _ (List.mem_singleton_self _)))
        found plain

/-- The text of a file is read under the path of its place. -/
theorem readText_toPath {d : Disk} (wellFormed : d.WellFormed) (place : Place) {text : String}
    (there : d.root.at? place = some (.file text.toUTF8)) : d.readText place.toPath = .ok text := by
  have located : d.locate true place.toPath = .ok place :=
    locate_toPath wellFormed there fun _ => Node.noConfusion
  rw [readText, read, located]
  simp only [there, Text.fromUTF8?_toUTF8]

/-- A name joined to the path of a directory means what the directory holds under it, if no link is
there. -/
theorem locate_join {d : Disk} {final : Bool} {base : Path} {place : Place}
    {entries : List (String × Node)} {name : String} {n : Node} (located : d.locate true base = .ok place)
    (there : d.root.at? place = some (.dir entries)) (isName : IsName name)
    (found : entries.lookup name = some n) (plain : ∀ target, n ≠ .link target) :
    d.locate final (base.join ⟨name⟩) = .ok (place ++ [name]) := by
  obtain ⟨ne, free, left, leads⟩ := locate_iff.mp located
  have relative := Path.not_isAbsolute_of_not_mem isName.noSlash
  obtain ⟨before, spelled, joined⟩ := Path.segments_join ne relative
  rw [Path.segments_of_not_mem isName.noSlash] at joined
  have toDir : Leads d.root linkLimit (d.start base) before left place := by
    rcases spelled with same | slashed
    · exact same ▸ leads
    · exact (slashed ▸ leads).of_idle (s := "") (by decide)
  have text := Path.toList_join ne relative
  refine locate_iff_follow.mpr ⟨?_, ?_, ?_⟩
  · intro empty
    rw [empty, String.toList_empty] at text
    exact ne (String.toList_eq_nil_iff.mp (List.append_eq_nil_iff.mp
      (List.append_eq_nil_iff.mp text.symm).1).1)
  · rw [text]
    simp only [List.mem_append, free, isName.noEnd, or_false, false_or]
    split <;> decide
  · rw [start, Path.isAbsolute_join ne relative, joined, ← start,
      toDir.follow_append (.inr (List.cons_ne_nil _ _))]
    exact follow_name final there isName found plain

end RouteTrees.Disk
