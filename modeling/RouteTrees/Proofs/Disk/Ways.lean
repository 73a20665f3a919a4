import Mathlib.Data.List.Nodup
import RouteTrees.Proofs.Disk.Walk
import RouteTrees.Proofs.Path.Descent

/-!
# The ways of a walk

A walk from a directory goes down all ways on which no directory is left out, each once, and meets what is
at their ends. So what is met is known by names: it is what the tree holds at the end of a way, and its path
is that of the start with the names of the way joined to it.
-/

namespace RouteTrees

/-- Whether a walk enters directories of all these names. -/
def Place.Entered (names : Place) : Prop := ∀ name ∈ names, name ∉ Convention.ignoredDirectories

namespace Place

@[simp] theorem entered_nil : Entered [] := fun _ mem => nomatch mem

@[simp] theorem entered_cons {name : String} {names : Place} :
    Entered (name :: names) ↔ name ∉ Convention.ignoredDirectories ∧ Entered names :=
  List.forall_mem_cons

@[simp] theorem entered_append {names more : Place} :
    Entered (names ++ more) ↔ Entered names ∧ Entered more :=
  List.forall_mem_append

end Place

namespace Node

mutual

/-- The ways that a walk takes from a node on, each with the node at its end. -/
def ways : Node → List (Place × Node)
  | dir es => ([], dir es) :: waysAll es
  | n => [([], n)]

/-- The ways that a walk takes through some entries. -/
def waysAll : List (String × Node) → List (Place × Node)
  | [] => []
  | (name, n) :: rest =>
    (if Disk.isIgnored name n then [] else n.ways.map fun way => (name :: way.1, way.2)) ++ waysAll rest

end

theorem isIgnored_eq_false_iff {name : String} {n : Node} : Disk.isIgnored name n = false ↔
    (n.isDir = true → name ∉ Convention.ignoredDirectories) := by
  simp [Disk.isIgnored]

/-- A way through entries goes through one that is not left out, and on from there. -/
theorem mem_waysAll_iff {es : List (String × Node)} {way : Place} {m : Node} :
    (way, m) ∈ waysAll es ↔ ∃ name c rest, way = name :: rest ∧ (name, c) ∈ es ∧
      Disk.isIgnored name c = false ∧ (rest, m) ∈ c.ways := by
  induction es with
  | nil => simp [waysAll]
  | cons e es ih =>
    obtain ⟨key, n⟩ := e
    rw [waysAll, List.mem_append, ih]
    constructor
    · rintro (first | ⟨name, c, rest, rfl, mem, entered, later⟩)
      · split at first
        · cases first
        · next entered =>
          obtain ⟨⟨rest, m⟩, later, whole⟩ := List.mem_map.mp first
          cases whole
          exact ⟨key, n, rest, rfl, List.mem_cons_self, Bool.eq_false_iff.mpr entered, later⟩
      · exact ⟨name, c, rest, rfl, List.mem_cons_of_mem _ mem, entered, later⟩
    · rintro ⟨name, c, rest, rfl, mem, entered, later⟩
      rcases List.mem_cons.mp mem with same | old
      · cases same
        rw [entered]
        exact .inl (List.mem_map.mpr ⟨(rest, m), later, rfl⟩)
      · exact .inr ⟨name, c, rest, rfl, old, entered, later⟩

/-- By no names, only a node itself is met. -/
theorem nil_mem_ways_iff {n m : Node} : (([] : Place), m) ∈ n.ways ↔ m = n := by
  cases n with
  | file _ | link _ => simp [ways]
  | dir es => simp [ways, mem_waysAll_iff]

/-- By some names, what is met is met by the others below what the first leads to. -/
theorem cons_mem_ways_iff {n m : Node} {name : String} {rest : Place} :
    (name :: rest, m) ∈ n.ways ↔ ∃ es c, n = dir es ∧ (name, c) ∈ es ∧
      Disk.isIgnored name c = false ∧ (rest, m) ∈ c.ways := by
  cases n with
  | file _ | link _ => simp [ways]
  | dir es => simp [ways, mem_waysAll_iff]

/-- Only below a directory there is something. -/
theorem isDir_of_at?_cons {n m : Node} {name : String} {rest : Place}
    (there : n.at? (name :: rest) = some m) : n.isDir = true := by
  cases n with
  | dir _ => rfl
  | file _ | link _ => simp [at?, child?] at there

/-- A way goes on through an entry that is not left out if and only if a directory of its name would be
entered, where it is one. -/
theorem entered_cons_iff {c m : Node} {name : String} {rest : Place} (there : c.at? rest = some m) :
    Disk.isIgnored name c = false ∧ Place.Entered rest.dropLast ∧ (m.isDir = true → Place.Entered rest) ↔
      Place.Entered (name :: rest).dropLast ∧ (m.isDir = true → Place.Entered (name :: rest)) := by
  rw [isIgnored_eq_false_iff]
  cases rest with
  | nil =>
    cases there
    simp
  | cons next rest =>
    have isDir := isDir_of_at?_cons there
    simp only [isDir, forall_true_left, List.dropLast_cons_cons, Place.entered_cons]
    tauto

/-- A walk takes a way if the names lead to a node and no directory on the way is left out, nor the node, if
it is a directory. -/
theorem mem_ways_iff {n m : Node} (orderly : n.isOrderly = true) {way : Place} :
    (way, m) ∈ n.ways ↔
      n.at? way = some m ∧ Place.Entered way.dropLast ∧ (m.isDir = true → Place.Entered way) := by
  induction way generalizing n with
  | nil => simpa [nil_mem_ways_iff, at?] using eq_comm
  | cons name rest ih =>
    rw [cons_mem_ways_iff]
    constructor
    · rintro ⟨es, c, rfl, mem, entered, later⟩
      rw [isOrderly, Bool.and_eq_true, decide_eq_true_iff] at orderly
      obtain ⟨there, allowed⟩ := (ih (orderly_of_mem orderly.2 mem).2).mp later
      have child : (dir es).child? name = some c := lookup_of_mem orderly.1 mem
      exact ⟨by simpa [at?, child] using there, (entered_cons_iff there).mp ⟨entered, allowed⟩⟩
    · rintro ⟨there, allowed⟩
      rw [at?] at there
      split at there
      · next c child =>
        cases n with
        | file _ | link _ => cases child
        | dir es =>
          rw [isOrderly, Bool.and_eq_true] at orderly
          have mem := mem_of_lookup child
          obtain ⟨entered, later⟩ := (entered_cons_iff there).mpr allowed
          exact ⟨es, c, rfl, mem, entered, (ih (orderly_of_mem orderly.2 mem).2).mpr ⟨there, later⟩⟩
      · cases there

/-- What a walk meets in a directory or below it, other than the directory itself. -/
theorem mem_waysAll_concat_iff {es : List (String × Node)} (orderly : (dir es).isOrderly = true)
    {names : Place} {name : String} {m : Node} : (names ++ [name], m) ∈ waysAll es ↔
      (dir es).at? (names ++ [name]) = some m ∧ names.Entered ∧
        (m.isDir = true → name ∉ Convention.ignoredDirectories) := by
  have same : (names ++ [name], m) ∈ (dir es).ways ↔ (names ++ [name], m) ∈ waysAll es := by
    simp [ways]
  rw [← same, mem_ways_iff orderly]
  simp only [List.dropLast_concat, Place.entered_append, Place.entered_cons, Place.entered_nil]
  tauto

mutual

/-- A walk takes no way twice. -/
theorem nodup_ways : ∀ n : Node, n.isOrderly = true → (n.ways.map (·.1)).Nodup
  | file _, _ => List.nodup_singleton _
  | link _, _ => List.nodup_singleton _
  | dir es, orderly => by
    rw [isOrderly, Bool.and_eq_true, decide_eq_true_iff] at orderly
    rw [ways, List.map_cons, List.nodup_cons]
    refine ⟨?_, nodup_waysAll es orderly.1 orderly.2⟩
    simp [mem_waysAll_iff]

/-- What a directory holds is met in one way each: by induction on the tree, for no name is listed twice. -/
theorem nodup_waysAll : ∀ es : List (String × Node), (es.map (·.1)).Nodup → areOrderly es = true →
    ((waysAll es).map (·.1)).Nodup
  | [], _, _ => List.nodup_nil
  | (name, n) :: rest, differ, orderly => by
    rw [areOrderly, Bool.and_eq_true, Bool.and_eq_true] at orderly
    obtain ⟨⟨-, below⟩, others⟩ := orderly
    rw [List.map_cons, List.nodup_cons] at differ
    rw [waysAll, List.map_append]
    refine List.Nodup.append ?_ (nodup_waysAll rest differ.2 others) ?_
    · split
      · exact List.nodup_nil
      · rw [List.map_map]
        have longer := (nodup_ways n below).map (List.cons_injective (a := name))
        rwa [List.map_map] at longer
    · -- ways through different entries differ in their first names
      intro way first later
      obtain ⟨⟨way, m⟩, mem, rfl⟩ := List.mem_map.mp later
      obtain ⟨key, c, others, rfl, listed, -⟩ := mem_waysAll_iff.mp mem
      have begins : key = name := by
        split at first
        · cases first
        · rw [List.map_map] at first
          obtain ⟨other, -, whole⟩ := List.mem_map.mp first
          exact (List.cons.inj whole).1.symm
      exact differ.1 (List.mem_map.mpr ⟨(key, c), listed, begins⟩)

end

end Node

namespace Disk

/-- What a walk meets at the end of a way from a path of a name. -/
def entryAt (start : Path) (name : String) (depth : Nat) (way : Place × Node) : Entry :=
  ⟨start.descend way.1, way.1.getLastD name, kindOf way.2, depth + way.1.length⟩

mutual

/-- A walk meets what is at the ends of its ways. -/
theorem walkNode_eq (path : Path) (name : String) (depth : Nat) : ∀ n : Node,
    walkNode path name depth n = n.ways.map (entryAt path name depth)
  | .file _ => rfl
  | .link _ => rfl
  | .dir es => by
    rw [walkNode, walkEntries_eq path name depth es, Node.ways, List.map_cons]
    rfl

/-- A walk through a directory meets what there are ways to. -/
theorem walkEntries_eq (path : Path) (name : String) (depth : Nat) : ∀ es : List (String × Node),
    walkEntries path (depth + 1) es = (Node.waysAll es).map (entryAt path name depth)
  | [] => rfl
  | (key, n) :: rest => by
    rw [walkEntries, Node.waysAll, List.map_append, walkEntries_eq path name depth rest]
    congr 1
    split
    · rfl
    · rw [walkNode_eq (path.join ⟨key⟩) key (depth + 1) n, List.map_map]
      apply List.map_congr_left
      intro way _
      simp only [Function.comp, entryAt, Path.descend_cons, List.getLastD_cons, List.length_cons,
        Nat.add_right_comm, Nat.add_assoc]

end

/-! ## What is met below the start of a walk -/

variable {d : Disk} {start : Path} {place : Place} {es : List (String × Node)}

/-- What is met below the start of a walk is at the end of names that enter no directory that is left out. -/
theorem mem_walkEntries_iff (orderly : (Node.dir es).isOrderly = true) {e : Entry} :
    e ∈ walkEntries start 1 es ↔ ∃ (names : Place) (name : String) (n : Node),
      (Node.dir es).at? (names ++ [name]) = some n ∧ names.Entered ∧
      (n.isDir = true → name ∉ Convention.ignoredDirectories) ∧
      e = ⟨start.descend (names ++ [name]), name, kindOf n, names.length + 1⟩ := by
  rw [walkEntries_eq start "" 0, List.mem_map]
  constructor
  · rintro ⟨⟨way, n⟩, mem, rfl⟩
    obtain ⟨key, c, rest, begins, -⟩ := Node.mem_waysAll_iff.mp mem
    obtain ⟨names, name, rfl⟩ := (List.eq_nil_or_concat way).resolve_left (by simp [begins])
    rw [List.concat_eq_append] at mem ⊢
    obtain ⟨there, entered, kept⟩ := (Node.mem_waysAll_concat_iff orderly).mp mem
    exact ⟨names, name, n, there, entered, kept, by simp [entryAt]⟩
  · rintro ⟨names, name, n, there, entered, kept, rfl⟩
    refine ⟨(names ++ [name], n), (Node.mem_waysAll_concat_iff orderly).mpr ⟨there, entered, kept⟩, ?_⟩
    simp [entryAt]

/-- No two of the start of a walk and what is met below it have one path. -/
theorem apart_walkEntries (ne : start.text ≠ "") (orderly : (Node.dir es).isOrderly = true) :
    (start :: (walkEntries start 1 es).map (·.path)).Pairwise fun p q => p.components ≠ q.components := by
  have named : ∀ way ∈ (Node.dir es).ways, Place.Named way.1 := by
    rintro ⟨way, n⟩ mem
    exact (Node.orderly_of_at? orderly ((Node.mem_ways_iff orderly).mp mem).1).1
  have spelled : start :: (walkEntries start 1 es).map (·.path) =
      (Node.dir es).ways.map fun way => start.descend way.1 := by
    rw [walkEntries_eq start "" 0, Node.ways, List.map_cons, List.map_map]
    rfl
  rw [spelled, List.pairwise_map]
  apply (List.pairwise_map.mp (Node.nodup_ways _ orderly)).imp_of_mem
  intro way way' mem mem' differ same
  exact differ (Path.descend_inj ne (named way mem) (named way' mem') same)

/-- Names below a directory lead from its path to what they lead to from its place, if that is no link. -/
theorem locate_descend {final : Bool} {names : Place} {name : String} {n m : Node} {base : Path}
    (located : d.locate true base = .ok place) (there : d.root.at? place = some n)
    (below : n.at? (names ++ [name]) = some m) (plain : ∀ target, m ≠ .link target)
    (named : Place.Named (names ++ [name])) :
    d.locate final (base.descend (names ++ [name])) = .ok (place ++ names ++ [name]) := by
  induction names generalizing base place n with
  | nil =>
    rw [List.nil_append, Node.at?] at below
    split at below
    · next c child =>
      cases below
      cases n with
      | file _ | link _ => cases child
      | dir es =>
        rw [List.append_nil]
        exact locate_join located there (named name (by simp)) child plain
    · cases below
  | cons first names ih =>
    rw [List.cons_append, Node.at?] at below
    split at below
    · next c child =>
      obtain ⟨isName, others⟩ := List.forall_mem_cons.mp named
      cases n with
      | file _ | link _ => cases child
      | dir es =>
        have isDir : c.isDir = true := by
          cases names with
          | nil => exact Node.isDir_of_at?_cons below
          | cons _ _ => exact Node.isDir_of_at?_cons below
        have notLink : ∀ target, c ≠ .link target := by
          rintro target rfl
          cases isDir
        have next := ih (locate_join located there isName child notLink)
          ((Node.at?_append_singleton there first).trans child) below others
        rw [List.cons_append, Path.descend_cons, next]
        simp
    · cases below

/-! ## What is where on a disk -/

/-- Whether a regular file is at a place. -/
def hasFile (d : Disk) (place : Place) : Bool := (d.root.at? place).any Node.isFile

/-- Whether a directory is at a place. -/
def hasDir (d : Disk) (place : Place) : Bool := (d.root.at? place).any Node.isDir

/-- There is a file at a place if there is something with a content. -/
theorem hasFile_iff : d.hasFile place = true ↔ ∃ content, d.root.at? place = some (.file content) := by
  rw [hasFile]
  cases d.root.at? place with
  | none => simp
  | some n => cases n <;> simp [Node.isFile]

/-- There is a directory at a place if there is something with entries. -/
theorem hasDir_iff : d.hasDir place = true ↔ ∃ es, d.root.at? place = some (.dir es) := by
  rw [hasDir]
  cases d.root.at? place with
  | none => simp
  | some n => cases n <;> simp [Node.isDir]

/-- A file is in a directory. -/
theorem hasDir_of_hasFile {name : String} (isFile : d.hasFile (place ++ [name]) = true) :
    d.hasDir place = true := by
  obtain ⟨content, there⟩ := hasFile_iff.mp isFile
  rw [Node.at?_append] at there
  obtain ⟨n, above, below⟩ := Option.bind_eq_some_iff.mp there
  rw [hasDir, above, Option.any_some]
  exact Node.isDir_of_at?_cons below

/-- A place where there is a file is made of names. -/
theorem named_of_hasFile (wellFormed : d.WellFormed) (isFile : d.hasFile place = true) : place.Named := by
  obtain ⟨content, there⟩ := hasFile_iff.mp isFile
  exact Place.named_of_at? wellFormed there

/-- What a walk meets that begins at a path of a directory at a place. -/
structure Walked (d : Disk) (start : Path) (place : Place) (entries : List Entry) : Prop where
  /-- Nothing is met twice. -/
  apart : (entries.map (·.path)).Pairwise fun p q => p.components ≠ q.components
  /-- No file is met where the walk begins. -/
  begins : ∀ e ∈ entries, e.kind = .file → 0 < e.depth
  /-- What is met below is at the end of names that enter no directory that is left out, and is not itself
  one. -/
  met_iff : ∀ e : Entry, e ∈ entries ∧ 0 < e.depth ↔ ∃ (names : Place) (name : String) (n : Node),
    d.root.at? (place ++ names ++ [name]) = some n ∧ names.Entered ∧
      (n.isDir = true → name ∉ Convention.ignoredDirectories) ∧
      e = ⟨start.descend (names ++ [name]), name, kindOf n, names.length + 1⟩

/-- From a directory a walk begins, and meets what is below. -/
theorem exists_walked (wellFormed : d.WellFormed) (notDash : start.components ≠ [.name "-"])
    (located : d.locate true start = .ok place) (isDir : d.hasDir place = true) :
    ∃ entries, d.walk start = .ok entries ∧ d.Walked start place entries := by
  obtain ⟨es, there⟩ := hasDir_iff.mp isDir
  have orderly := (Node.orderly_of_at? wellFormed.orderly there).2
  obtain ⟨first, begins, walked⟩ := exists_begins notDash located there
  refine ⟨_, walked, ?_, ?_, fun e => ?_⟩
  · rw [List.map_cons, begins.path]
    exact apart_walkEntries (locate_iff.mp located).1 orderly
  · intro e mem isFile
    rcases List.mem_cons.mp mem with rfl | later
    · cases begins.isFile_iff.mp isFile
    · obtain ⟨names, name, n, -, -, -, rfl⟩ := (mem_walkEntries_iff orderly).mp later
      exact Nat.succ_pos _
  · have below (names : Place) (name : String) :
        d.root.at? (place ++ names ++ [name]) = (Node.dir es).at? (names ++ [name]) := by
      rw [List.append_assoc, Node.at?_append, there, Option.bind_some]
    simp only [below]
    rw [← mem_walkEntries_iff orderly, List.mem_cons]
    constructor
    · rintro ⟨rfl | later, deeper⟩
      · exact absurd begins.depth (Nat.ne_of_gt deeper)
      · exact later
    · intro later
      refine ⟨.inr later, ?_⟩
      obtain ⟨names, name, n, -, -, -, rfl⟩ := (mem_walkEntries_iff orderly).mp later
      exact Nat.succ_pos _

/-- The files that a walk meets are the regular files below. -/
theorem Walked.file_met_iff {entries : List Entry} (walked : d.Walked start place entries) {e : Entry} :
    e ∈ entries ∧ e.kind = .file ↔ ∃ (names : Place) (name : String),
      d.hasFile (place ++ names ++ [name]) = true ∧ names.Entered ∧
        e = ⟨start.descend (names ++ [name]), name, .file, names.length + 1⟩ := by
  constructor
  · rintro ⟨mem, isFile⟩
    obtain ⟨names, name, n, there, entered, -, rfl⟩ :=
      (walked.met_iff e).mp ⟨mem, walked.begins e mem isFile⟩
    have isFile : kindOf n = .file := isFile
    refine ⟨names, name, ?_, entered, by rw [isFile]⟩
    rw [hasFile, there, Option.any_some]
    exact kindOf_eq_file_iff.mp isFile
  · rintro ⟨names, name, isFile, entered, rfl⟩
    obtain ⟨content, there⟩ := hasFile_iff.mp isFile
    obtain ⟨mem, -⟩ := (walked.met_iff _).mpr
      ⟨names, name, _, there, entered, (fun isDir => nomatch isDir), rfl⟩
    exact ⟨mem, rfl⟩

end Disk

end RouteTrees
