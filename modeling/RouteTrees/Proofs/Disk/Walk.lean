import RouteTrees.Disk.Walk
import RouteTrees.Proofs.Disk.Leads

/-!
# What is met on a walk is where its path leads

A walk spells a path for everything that it meets by joining names. On a well-formed disk each of these
paths leads to what was met, so the canonical name of a file that was met is the path of its place.
-/

namespace RouteTrees

namespace Disk

/-- Whether a path leads to a node of a kind. -/
def LeadsTo (d : Disk) (p : Path) (kind : EntryKind) : Prop :=
  ∃ place n, d.locate true p = .ok place ∧ d.root.at? place = some n ∧ kindOf n = kind

mutual

/-- What is met at a node that a path leads to, and below it, is where its own path leads, unless it is a
link. -/
theorem leadsTo_of_mem_walkNode {d : Disk} {path : Path} {place : Place} {name : String}
    {depth : Nat} {e : Entry} (plain : e.kind ≠ .other) : ∀ n : Node, n.isOrderly = true →
      d.locate true path = .ok place → d.root.at? place = some n →
      e ∈ walkNode path name depth n → d.LeadsTo e.path e.kind
  | .file content, _, located, there, mem => by
    cases List.mem_singleton.mp mem
    exact ⟨place, _, located, there, rfl⟩
  | .link target, _, _, _, mem => by
    cases List.mem_singleton.mp mem
    exact absurd rfl plain
  | .dir entries, orderly, located, there, mem => by
    rw [Node.isOrderly, Bool.and_eq_true, decide_eq_true_iff] at orderly
    rcases List.mem_cons.mp mem with rfl | below
    · exact ⟨place, _, located, there, rfl⟩
    · exact leadsTo_of_mem_walkEntries plain entries orderly.2 located there
        (fun _ _ listed => Node.lookup_of_mem orderly.1 listed) below

/-- What is met at some entries of a directory, and below them, is where its path leads, unless it is a
link. -/
theorem leadsTo_of_mem_walkEntries {d : Disk} {path : Path} {place : Place}
    {all : List (String × Node)} {depth : Nat} {e : Entry} (plain : e.kind ≠ .other) :
    ∀ entries : List (String × Node), Node.areOrderly entries = true →
      d.locate true path = .ok place → d.root.at? place = some (.dir all) →
      (∀ name n, (name, n) ∈ entries → all.lookup name = some n) →
      e ∈ walkEntries path depth entries → d.LeadsTo e.path e.kind
  | [], _, _, _, _, mem => nomatch mem
  | (name, n) :: rest, orderly, located, there, listed, mem => by
    rw [Node.areOrderly, Bool.and_eq_true, Bool.and_eq_true, decide_eq_true_iff] at orderly
    obtain ⟨⟨isName, below⟩, others⟩ := orderly
    rcases List.mem_append.mp mem with first | later
    · have found := listed name n List.mem_cons_self
      split at first
      · cases first
      · cases isLink : n with
        | link target =>
          rw [isLink] at first
          cases List.mem_singleton.mp first
          exact absurd rfl plain
        | file _ | dir _ =>
          have notLink : ∀ target, n ≠ .link target := by
            intro target
            rw [isLink]
            exact Node.noConfusion
          have there' := (Node.at?_append_singleton there name).trans found
          have located' : d.locate true (path.join ⟨name⟩) = .ok (place ++ [name]) :=
            locate_join located there isName found notLink
          exact leadsTo_of_mem_walkNode plain n below located' there' first
    · exact leadsTo_of_mem_walkEntries plain rest others located there
        (fun key c old => listed key c (List.mem_cons_of_mem _ old)) later

end

/-! ## Where a walk begins -/

/-- Where segments lead, they also lead if a link at the end is not followed: to the same place, or to such a
link. -/
theorem Leads.follow_unfollowed {root : Node} {budget left : Nat} {place last : Place}
    {pending : List String} (leads : Leads root budget place pending left last) :
    follow root false budget place pending = .ok (.found last) ∨
      ∃ stop target, follow root false budget place pending = .ok (.found stop) ∧
        root.at? stop = some (.link target) := by
  induction leads with
  | arrived => exact .inl (by rw [follow])
  | idle there idle _ ih =>
    rw [follow, there]
    simpa only [idle, if_true] using ih
  | up there _ ih =>
    rw [follow, there]
    simpa only [Path.isIdle, String.reduceEq, decide_false, Bool.or_self, Bool.false_eq_true, if_false,
      if_true] using ih
  | @link _ place s rest _ _ _ target there busy notUp short found ne _ ih =>
    rw [follow, there]
    simp only [busy, notUp, short, found, ne, Bool.false_eq_true, if_false, Bool.not_false, Bool.and_true]
    by_cases ends : rest.isEmpty = true
    · have isLink := (Node.at?_append_singleton there s).trans found
      exact .inr ⟨place ++ [s], target, by rw [if_pos ends], isLink⟩
    · simpa only [if_neg ends] using ih
  | into there busy notUp short found plain _ ih =>
    rw [follow, there]
    simpa only [busy, notUp, short, found, Bool.false_eq_true, if_false] using ih

/-- What a walk meets where it begins, if its path leads to a node: that node, or a link to a directory. -/
structure Begins (start : Path) (n : Node) (first : Entry) : Prop where
  path : first.path = start
  name : first.name = start.fileName?.getD start.text
  depth : first.depth = 0
  kind : first.kind = kindOf n ∨ first.kind = .other ∧ n.isDir = true

theorem kindOf_eq_file_iff {n : Node} : kindOf n = .file ↔ n.isFile = true := by
  cases n <;> simp [kindOf, Node.isFile]

/-- A walk begins with a file if and only if its path leads to one. -/
theorem Begins.isFile_iff {start : Path} {n : Node} {first : Entry} (begins : Begins start n first) :
    first.kind = .file ↔ n.isFile = true := by
  rcases begins.kind with same | ⟨other, isDir⟩
  · rw [same, kindOf_eq_file_iff]
  · rw [other]
    cases n <;> simp [Node.isFile, Node.isDir] at isDir ⊢

/-- A walk that begins at a file meets it as a file of depth zero. -/
theorem Begins.eq_of_isFile {start : Path} {n : Node} {first : Entry} (begins : Begins start n first)
    (isFile : n.isFile = true) : first = ⟨start, start.fileName?.getD start.text, .file, 0⟩ := by
  have kind := begins.isFile_iff.mpr isFile
  obtain ⟨path, name, depth, -⟩ := begins
  cases first
  simp_all

theorem components_dash : (Path.mk "-").components = [.name "-"] := by decide

/-- What a walk takes for its input is the dash alone, in any spelling. -/
theorem isInput_eq_false_iff {p : Path} : isInput p = false ↔ p.components ≠ [.name "-"] := by
  rw [isInput, Path.same, components_dash, decide_eq_false_iff_not]

/-- An absolute path is no dash. -/
theorem components_ne_dash {p : Path} (absolute : p.isAbsolute = true) : p.components ≠ [.name "-"] := by
  rw [Path.components_of_isAbsolute absolute]
  simp

/-- A walk meets where it begins, and then what is below. -/
theorem exists_begins {d : Disk} {start : Path} {place : Place} {n : Node}
    (notDash : start.components ≠ [.name "-"]) (located : d.locate true start = .ok place)
    (there : d.root.at? place = some n) :
    ∃ first, Begins start n first ∧ d.walk start = .ok (first :: walkEntries start 1 n.entries) := by
  have notInput := isInput_eq_false_iff.mpr notDash
  obtain ⟨m, there', plain⟩ := isPlain_of_locate located
  cases there.symm.trans there'
  obtain ⟨ne, free, left, leads⟩ := locate_iff.mp located
  rcases leads.follow_unfollowed with ends | ⟨stop, target, found, isLink⟩
  · have unfollowed : d.locate false start = .ok place := locate_iff_follow.mpr ⟨ne, free, ends⟩
    refine ⟨⟨start, start.fileName?.getD start.text, kindOf n, 0⟩, ⟨rfl, rfl, rfl, .inl rfl⟩, ?_⟩
    rw [walk]
    simp only [notInput, Bool.false_eq_true, if_false, unfollowed, there]
    cases n with
    | link target => exact absurd rfl (plain target)
    | file _ | dir _ => rfl
  · have unfollowed : d.locate false start = .ok stop := locate_iff_follow.mpr ⟨ne, free, found⟩
    cases n with
    | link target => exact absurd rfl (plain target)
    | file content =>
      refine ⟨⟨start, start.fileName?.getD start.text, .file, 0⟩, ⟨rfl, rfl, rfl, .inl rfl⟩, ?_⟩
      rw [walk]
      simp only [notInput, Bool.false_eq_true, if_false, unfollowed, isLink, located, there]
      rfl
    | dir es =>
      refine ⟨⟨start, start.fileName?.getD start.text, .other, 0⟩, ⟨rfl, rfl, rfl, .inr ⟨rfl, rfl⟩⟩, ?_⟩
      rw [walk]
      simp only [notInput, Bool.false_eq_true, if_false, unfollowed, isLink, located, there]
      rfl

/-- A walk can begin only with the standard input, or where its path leads. -/
theorem begins_of_walk {d : Disk} {start : Path} {entries : List Entry}
    (walked : d.walk start = .ok entries) : entries = [input] ∨ start.components ≠ [.name "-"] ∧
      ∃ place n first, d.locate true start = .ok place ∧ d.root.at? place = some n ∧ Begins start n first ∧
        entries = first :: walkEntries start 1 n.entries := by
  by_cases isInput : isInput start = true
  · rw [walk, if_pos isInput] at walked
    cases walked
    exact .inl rfl
  · have notDash := isInput_eq_false_iff.mp (Bool.eq_false_iff.mpr isInput)
    have leads : ∃ place, d.locate true start = .ok place := by
      simp only [walk, isInput, Bool.false_eq_true, if_false] at walked
      split at walked
      · cases walked
      · next place located =>
        split at walked
        · split at walked
          · cases walked
          · next behind followed => exact ⟨behind, followed⟩
        · next n notLink there => exact ⟨place, locate_of_plain located there notLink⟩
        · cases walked
    obtain ⟨place, located⟩ := leads
    obtain ⟨n, there, -⟩ := isPlain_of_locate located
    obtain ⟨first, begins, walked'⟩ := exists_begins notDash located there
    exact .inr ⟨notDash, place, n, first, located, there, begins, Except.ok.inj (walked.symm.trans walked')⟩

/-- What is met on a walk is where its path leads, unless it is a link. -/
theorem leadsTo_of_mem_walk {d : Disk} (wellFormed : d.WellFormed) {start : Path}
    {entries : List Entry} (walked : d.walk start = .ok entries) {e : Entry} (mem : e ∈ entries)
    (plain : e.kind ≠ .other) : d.LeadsTo e.path e.kind := by
  rcases begins_of_walk walked with rfl | ⟨-, place, n, first, located, there, begins, rfl⟩
  · cases List.mem_singleton.mp mem
    exact absurd rfl plain
  · rcases List.mem_cons.mp mem with rfl | below
    · have same := begins.kind.resolve_right fun link => plain link.1
      exact ⟨place, n, begins.path ▸ located, there, same.symm⟩
    · cases n with
      | file _ | link _ => cases below
      | dir es =>
        have orderly := (Node.orderly_of_at? wellFormed.orderly there).2
        rw [Node.isOrderly, Bool.and_eq_true, decide_eq_true_iff] at orderly
        exact leadsTo_of_mem_walkEntries plain es orderly.2 located there
          (fun _ _ listed => Node.lookup_of_mem orderly.1 listed) below

/-- A walk from the path of a directory meets the directory and what is below it. -/
theorem walk_toPath {d : Disk} (wellFormed : d.WellFormed) {place : Place}
    {entries : List (String × Node)} (there : d.root.at? place = some (.dir entries)) :
    d.walk place.toPath = .ok (walkNode place.toPath
      (place.toPath.fileName?.getD place.toPath.text) 0 (.dir entries)) := by
  have located : d.locate false place.toPath = .ok place :=
    locate_toPath wellFormed there fun _ => Node.noConfusion
  have named := isInput_eq_false_iff.mpr (components_ne_dash place.isAbsolute_toPath)
  rw [walk]
  simp only [named, Bool.false_eq_true, if_false, located, there]

/-! ## Canonical names -/

/-- Whether a path is that of the place of a file. -/
def IsCanonicalFile (d : Disk) (p : Path) : Prop :=
  ∃ place content, d.root.at? place = some (.file content) ∧ p = Place.toPath place

/-- A canonical file is where its path is canonical. -/
theorem IsCanonicalFile.isCanonical {d : Disk} (wellFormed : d.WellFormed) {p : Path}
    (isFile : d.IsCanonicalFile p) : p.IsCanonical := by
  obtain ⟨place, content, there, spelled⟩ := isFile
  exact ⟨place, Place.named_of_at? wellFormed there, spelled⟩

/-- What a path leads to is a canonical file, if it is a file. -/
theorem LeadsTo.isCanonicalFile {d : Disk} {p : Path} (leads : d.LeadsTo p .file) :
    d.IsCanonicalFile (d.canonical p) := by
  obtain ⟨place, n, located, there, isFile⟩ := leads
  cases n with
  | file content => exact ⟨place, content, there, canonical_of_locate located⟩
  | link _ => cases isFile
  | dir _ => cases isFile

/-- What a path leads to is canonical. -/
theorem isCanonical_of_locate {d : Disk} (wellFormed : d.WellFormed) {p : Path} {place : Place}
    (located : d.locate true p = .ok place) : (d.canonical p).IsCanonical := by
  obtain ⟨n, there, -⟩ := isPlain_of_locate located
  exact ⟨place, Place.named_of_at? wellFormed there, canonical_of_locate located⟩

end Disk

end RouteTrees
