import RouteTrees.Project.Resolution
import RouteTrees.Project.Sources
import RouteTrees.Proofs.Disk.Relisted

/-!
# What the contents of files have no part in

Where a path leads, what is there, and what is met on a walk depend on the names, directories and links of
a disk only. Such questions have the same answer once every file has been emptied, and so for any two
disks that are then the same.
-/

namespace RouteTrees

namespace Node

mutual

/-- A node with every file at or below it emptied. -/
def emptied : Node → Node
  | file _ => file .empty
  | link target => link target
  | dir es => dir (emptiedAll es)

/-- What the names of a directory lead to, with every file emptied. -/
def emptiedAll : List (String × Node) → List (String × Node)
  | [] => []
  | (name, n) :: rest => (name, n.emptied) :: emptiedAll rest

end

variable {n : Node} {es : List (String × Node)}

/-- The names of a directory lead to what they led to, emptied. -/
theorem lookup_emptiedAll (es : List (String × Node)) (name : String) :
    (emptiedAll es).lookup name = (es.lookup name).map emptied := by
  induction es with
  | nil => rfl
  | cons e rest ih =>
    obtain ⟨key, n⟩ := e
    rw [emptiedAll, List.lookup_cons, List.lookup_cons]
    split
    · rfl
    · exact ih

/-- What a node holds under a name is there in the emptied node, emptied. -/
theorem child?_emptied (n : Node) (name : String) :
    n.emptied.child? name = (n.child? name).map emptied := by
  cases n with
  | file _ | link _ => rfl
  | dir es =>
    rw [emptied]
    exact lookup_emptiedAll es name

/-- What is at a place is there in the emptied tree, emptied. -/
theorem at?_emptied (n : Node) (place : Place) :
    n.emptied.at? place = (n.at? place).map emptied := by
  induction place generalizing n with
  | nil => rfl
  | cons name rest ih =>
    rw [at?, at?, child?_emptied]
    cases n.child? name with
    | none => rfl
    | some c => exact ih c

@[simp] theorem isFile_emptied (n : Node) : n.emptied.isFile = n.isFile := by
  cases n <;> rw [emptied] <;> rfl

@[simp] theorem isDir_emptied (n : Node) : n.emptied.isDir = n.isDir := by
  cases n <;> rw [emptied] <;> rfl

/-- Emptying files leaves the names of a directory. -/
theorem names_emptiedAll (es : List (String × Node)) :
    (emptiedAll es).map (·.1) = es.map (·.1) := by
  induction es with
  | nil => rfl
  | cons e rest ih => exact congrArg (e.1 :: ·) ih

mutual

/-- Emptying files leaves a tree orderly: by induction on the tree, for names are all that counts. -/
theorem isOrderly_emptied : ∀ n : Node, n.emptied.isOrderly = n.isOrderly
  | file _ => rfl
  | link _ => rfl
  | dir es => by rw [emptied, isOrderly, isOrderly, names_emptiedAll, areOrderly_emptiedAll es]

/-- Emptying files leaves what a directory holds orderly. -/
theorem areOrderly_emptiedAll : ∀ es : List (String × Node),
    areOrderly (emptiedAll es) = areOrderly es
  | [] => rfl
  | (name, n) :: rest => by
    rw [emptiedAll, areOrderly, areOrderly, isOrderly_emptied n, areOrderly_emptiedAll rest]

end

end Node

namespace Disk

/-- A disk with every file emptied. -/
def emptied (d : Disk) : Disk := { d with root := d.root.emptied }

/-! ## Where paths lead -/

/-- Following a path reads no file, so it leads to the same place. -/
theorem follow_emptied (root : Node) (final : Bool) (budget : Nat) (place : Place)
    (pending : List String) :
    follow root.emptied final budget place pending = follow root final budget place pending := by
  apply follow_congr
  intro place
  have alike : Node.sight ∘ Node.emptied = Node.sight := by
    funext n
    cases n <;> rfl
  rw [Node.at?_emptied, Option.map_map, alike]

variable (d : Disk)

theorem spot_emptied (final : Bool) (p : Path) : d.emptied.spot final p = d.spot final p := by
  rw [spot, spot, emptied, follow_emptied]

theorem locate_emptied (final : Bool) (p : Path) : d.emptied.locate final p = d.locate final p := by
  rw [locate, locate, spot_emptied]

/-- A path leads to the same node, emptied. -/
theorem node?_emptied (final : Bool) (p : Path) :
    d.emptied.node? final p = (d.node? final p).map Node.emptied := by
  rw [node?, node?, locate_emptied]
  cases d.locate final p with
  | ok place => exact Node.at?_emptied d.root place
  | error _ => rfl

/-- A path is of a file whatever files hold. -/
theorem isFile_emptied (p : Path) : d.emptied.isFile p = d.isFile p := by
  rw [isFile, isFile, node?_emptied, Option.any_map]
  exact congrArg (Option.any · _) (funext Node.isFile_emptied)

/-- A path is of a directory whatever files hold. -/
theorem isDir_emptied (p : Path) : d.emptied.isDir p = d.isDir p := by
  rw [isDir, isDir, node?_emptied, Option.any_map]
  exact congrArg (Option.any · _) (funext Node.isDir_emptied)

theorem canonical_emptied (p : Path) : d.emptied.canonical p = d.canonical p := by
  rw [canonical, canonical, locate_emptied]

/-- A source file is found whatever it holds. -/
theorem sourceAt?_emptied (p : Path) : d.emptied.sourceAt? p = d.sourceAt? p := by
  rw [sourceAt?, sourceAt?, candidates, candidates, isDir_emptied,
    funext (isFile_emptied d), funext (canonical_emptied d)]

/-- A disk is well formed whatever its files hold. -/
theorem wellFormed_emptied : d.emptied.WellFormed ↔ d.WellFormed := by
  have rooted := d.root.isDir_emptied
  have orderly := d.root.isOrderly_emptied
  exact ⟨fun h => ⟨rooted ▸ h.rooted, orderly ▸ h.orderly⟩,
    fun h => ⟨rooted.trans h.rooted, orderly.trans h.orderly⟩⟩

/-! ## What is met on a walk -/

mutual

/-- A walk meets the same entries whatever files hold: by induction on the tree it goes through. -/
theorem walkNode_emptied (path : Path) (name : String) (depth : Nat) : ∀ n : Node,
    walkNode path name depth n.emptied = walkNode path name depth n
  | .file _ => rfl
  | .link _ => rfl
  | .dir entries => by
    rw [Node.emptied, walkNode, walkNode, walkEntries_emptied path (depth + 1) entries]

/-- A walk through a directory meets the same entries whatever files hold. -/
theorem walkEntries_emptied (parent : Path) (depth : Nat) : ∀ entries : List (String × Node),
    walkEntries parent depth (Node.emptiedAll entries) = walkEntries parent depth entries
  | [] => rfl
  | (name, n) :: rest => by
    rw [Node.emptiedAll, walkEntries, walkEntries, isIgnored, isIgnored, Node.isDir_emptied,
      walkNode_emptied (parent.join ⟨name⟩) name depth n, walkEntries_emptied parent depth rest]

end

/-- A walk of a disk meets the same entries whatever files hold. -/
theorem walk_emptied (start : Path) : d.emptied.walk start = d.walk start := by
  have there (place : Place) : d.emptied.root.at? place = (d.root.at? place).map Node.emptied :=
    Node.at?_emptied d.root place
  simp only [walk, locate_emptied, there]
  congr 1
  cases d.locate false start with
  | error _ => rfl
  | ok place =>
    simp only
    cases d.root.at? place with
    | none => rfl
    | some n =>
      cases n with
      | file _ => rfl
      | dir entries => exact congrArg Except.ok (walkNode_emptied _ _ _ (.dir entries))
      | link _ =>
        simp only [Option.map_some, Node.emptied]
        cases d.locate true start with
        | error _ => rfl
        | ok behind =>
          simp only
          cases d.root.at? behind with
          | none => rfl
          | some m =>
            cases m with
            | file _ | link _ => rfl
            | dir entries =>
              exact congrArg (fun met => Except.ok (_ :: met)) (walkEntries_emptied _ _ entries)

theorem sources_emptied (root : Path) : d.emptied.sources root = d.sources root := by
  rw [sources, sources, walkable, walkable, walk_emptied]

end Disk

/-- The index of a project does not depend on what files hold. -/
theorem FileIndex.ofDisk_emptied (d : Disk) (root : Path) : ofDisk d.emptied root = ofDisk d root := by
  rw [ofDisk, ofDisk, Disk.sources_emptied, funext d.canonical_emptied]

/-! ## Disks with the same names -/

namespace Disk

/-- Whether two disks have the same directories, links and names of files. -/
def SameNames (d d' : Disk) : Prop := d.emptied = d'.emptied

namespace SameNames

variable {d d' : Disk}

/-- A question in whose answer the contents of files have no part has one answer on both disks. -/
theorem answer_eq (same : d.SameNames d') {α : Type} (question : Disk → α)
    (ignores : ∀ d : Disk, question d.emptied = question d) : question d = question d' := by
  rw [← ignores d, same, ignores d']

/-- Of two disks with the same names, one is well formed if the other is. -/
theorem wellFormed (same : d.SameNames d') (wellFormed : d.WellFormed) : d'.WellFormed :=
  (wellFormed_emptied d').mp (same ▸ (wellFormed_emptied d).mpr wellFormed)

/-- What one disk has at a place the other has too, files emptied. -/
theorem at?_eq (same : d.SameNames d') (place : Place) :
    (d.root.at? place).map Node.emptied = (d'.root.at? place).map Node.emptied := by
  rw [← Node.at?_emptied, ← Node.at?_emptied]
  exact congrArg (fun d : Disk => d.root.at? place) same

/-- Reading a path gives the same on both disks if the file it leads to has the same content. -/
theorem read_eq (same : d.SameNames d') {p : Path}
    (kept : ∀ place content, d.locate true p = .ok place → d.root.at? place = some (.file content) →
      d'.root.at? place = some (.file content)) : d.read p = d'.read p := by
  have located := same.answer_eq (·.locate true p) (locate_emptied · true p)
  rw [read, read, ← located]
  cases leads : d.locate true p with
  | error _ => rfl
  | ok place =>
    have there := same.at?_eq place
    simp only
    cases here : d.root.at? place with
    | none =>
      rw [here, Option.map_none, eq_comm, Option.map_eq_none_iff] at there
      rw [there]
    | some n =>
      rw [here, Option.map_some, eq_comm, Option.map_eq_some_iff] at there
      obtain ⟨m, here', same⟩ := there
      cases n with
      | file content => rw [kept place content leads here]
      | link _ | dir _ =>
        rw [here']
        cases m <;> simp only [Node.emptied, reduceCtorEq] at same ⊢

end SameNames

end Disk

end RouteTrees
