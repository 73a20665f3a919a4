import RouteTrees.Disk.Locate
import RouteTrees.Proofs.Path.Characters

/-!
# Places have one name

On a disk whose directories hold names that a path can spell, each once, the path of a place leads to that
place and to no other, and two such paths that say the same are spelled alike. This is what makes the
canonical name of a file a name: comparing paths compares files.
-/

namespace RouteTrees

/-! ## Well-formed disks -/

/-- What a directory can call something. The dots and the empty name mean something else, a slash or the
character that ends paths would end the name, and a longer name is refused. -/
structure Disk.IsName (name : String) : Prop where
  busy : Path.isIdle name = false
  notUp : name ≠ ".."
  noSlash : '/' ∉ name.toList
  noEnd : '\x00' ∉ name.toList
  short : name.utf8ByteSize ≤ Disk.nameLimit

/-- Whether a text can be a name is decided by its characters. -/
instance (name : String) : Decidable (Disk.IsName name) :=
  decidable_of_iff (Path.isIdle name = false ∧ name ≠ ".." ∧ '/' ∉ name.toList ∧
      '\x00' ∉ name.toList ∧ name.utf8ByteSize ≤ Disk.nameLimit)
    ⟨fun ⟨a, b, c, d, e⟩ => ⟨a, b, c, d, e⟩, fun ⟨a, b, c, d, e⟩ => ⟨a, b, c, d, e⟩⟩

namespace Node

mutual

/-- Whether the names at and below a node are names, and differ within each directory. -/
def isOrderly : Node → Bool
  | dir es => decide (es.map (·.1)).Nodup && areOrderly es
  | _ => true

/-- Whether the names of some entries and all below them are names, and differ below them. -/
def areOrderly : List (String × Node) → Bool
  | [] => true
  | (name, n) :: rest => decide (Disk.IsName name) && n.isOrderly && areOrderly rest

end

/-- Each of some orderly entries has a name and is orderly. -/
theorem orderly_of_mem {es : List (String × Node)} {name : String} {n : Node}
    (orderly : areOrderly es = true) (mem : (name, n) ∈ es) :
    Disk.IsName name ∧ n.isOrderly = true := by
  induction es with
  | nil => cases mem
  | cons e rest ih =>
    obtain ⟨key, c⟩ := e
    rw [areOrderly, Bool.and_eq_true, Bool.and_eq_true, decide_eq_true_iff] at orderly
    obtain ⟨⟨isName, below⟩, others⟩ := orderly
    rcases List.mem_cons.mp mem with same | old
    · cases same
      exact ⟨isName, below⟩
    · exact ih others old

/-- What a directory lists under a name is found under it, for it lists no name twice. -/
theorem lookup_of_mem {es : List (String × Node)} {name : String} {n : Node}
    (differ : (es.map (·.1)).Nodup) (mem : (name, n) ∈ es) : es.lookup name = some n := by
  induction es with
  | nil => cases mem
  | cons e rest ih =>
    obtain ⟨key, c⟩ := e
    rw [List.map_cons, List.nodup_cons] at differ
    rw [List.lookup_cons]
    rcases List.mem_cons.mp mem with same | old
    · cases same
      rw [beq_self_eq_true]
    · have ne : name ≠ key := fun same => differ.1 (List.mem_map.mpr ⟨(name, n), old, same⟩)
      rw [beq_false_of_ne ne]
      exact ih differ.2 old

/-- What is found under a name is listed under it. -/
theorem mem_of_lookup {es : List (String × Node)} {name : String} {n : Node}
    (found : es.lookup name = some n) : (name, n) ∈ es := by
  obtain ⟨before, after, rfl, -⟩ := List.lookup_eq_some_iff.mp found
  exact List.mem_append_right _ List.mem_cons_self

/-- What is at a place below another is found from there. -/
theorem at?_append (n : Node) (place rest : Place) :
    n.at? (place ++ rest) = (n.at? place).bind (·.at? rest) := by
  induction place generalizing n with
  | nil => rfl
  | cons name place ih =>
    rw [List.cons_append, at?, at?]
    cases n.child? name with
    | none => rfl
    | some c => exact ih c

/-- What a directory at a place holds under a name is at the place of that name. -/
theorem at?_append_singleton {n : Node} {place : Place} {es : List (String × Node)}
    (there : n.at? place = some (dir es)) (name : String) :
    n.at? (place ++ [name]) = es.lookup name := by
  rw [at?_append, there, Option.bind_some, at?, child?]
  cases es.lookup name <;> rfl

/-- What is at a place below an orderly node is orderly, and the place is made of names. -/
theorem orderly_of_at? {n m : Node} {place : Place} (orderly : n.isOrderly = true)
    (found : n.at? place = some m) : (∀ name ∈ place, Disk.IsName name) ∧ m.isOrderly = true := by
  induction place generalizing n with
  | nil =>
    cases found
    exact ⟨fun _ mem => (nomatch mem), orderly⟩
  | cons name rest ih =>
    rw [at?] at found
    split at found
    · next c child =>
      cases n with
      | file _ => cases child
      | link _ => cases child
      | dir es =>
        rw [isOrderly, Bool.and_eq_true] at orderly
        obtain ⟨isName, below⟩ := orderly_of_mem orderly.2 (mem_of_lookup child)
        obtain ⟨names, last⟩ := ih below found
        exact ⟨List.forall_mem_cons.mpr ⟨isName, names⟩, last⟩
    · cases found

end Node

/-- A disk begins with a directory, and its directories give each of what they hold a name of its own. -/
structure Disk.WellFormed (d : Disk) : Prop where
  rooted : d.root.isDir = true
  orderly : d.root.isOrderly = true

/-! ## The path of a place -/

namespace Place

/-- Whether a place is made of names. -/
def Named (place : Place) : Prop := ∀ name ∈ place, Disk.IsName name

instance (place : Place) : Decidable place.Named :=
  inferInstanceAs (Decidable (∀ name ∈ place, Disk.IsName name))

theorem named_of_at? {d : Disk} (wellFormed : d.WellFormed) {place : Place} {n : Node}
    (there : d.root.at? place = some n) : place.Named :=
  (Node.orderly_of_at? wellFormed.orderly there).1

theorem isAbsolute_toPath (place : Place) : place.toPath.isAbsolute = true :=
  Path.isAbsolute_slash _

/-- The segments of the path of a place are its names, if they have no slashes. -/
theorem segments_toPath_of_not_mem {place : Place} (free : ∀ name ∈ place, '/' ∉ name.toList)
    (ne : place ≠ []) : place.toPath.segments = place := by
  rw [Path.segments_eq, toPath, Path.body_slash]
  exact Path.split_intercalate free ne

theorem segments_toPath {place : Place} (named : place.Named) (ne : place ≠ []) :
    place.toPath.segments = place :=
  segments_toPath_of_not_mem (fun name mem => (named name mem).noSlash) ne

/-- The components of the path of a place are the root and its names. -/
theorem components_toPath {place : Place} (named : place.Named) :
    place.toPath.components = .root :: place.map .name := by
  rw [Path.components_of_isAbsolute place.isAbsolute_toPath]
  cases place with
  | nil => rfl
  | cons name rest =>
    rw [segments_toPath named (List.cons_ne_nil name rest)]
    have busy : (name :: rest).filter (fun s => !Path.isIdle s) = name :: rest :=
      List.filter_eq_self.mpr fun s mem => by rw [(named s mem).busy, Bool.not_false]
    rw [busy]
    exact congrArg _ (List.map_congr_left fun s mem => if_neg (named s mem).notUp)

/-- The path of a place is called by the last name. -/
theorem fileName?_toPath {place : Place} {name : String} (named : Named (place ++ [name])) :
    (place ++ [name] : Place).toPath.fileName? = some name := by
  rw [Path.fileName?, components_toPath named, List.map_append, ← List.cons_append, List.map_singleton,
    List.getLast?_concat]

/-- Places are known by what their paths say. -/
theorem eq_of_same {p q : Place} (namedP : p.Named) (namedQ : q.Named)
    (same : p.toPath.same q.toPath = true) : p = q := by
  have components := of_decide_eq_true same
  rw [components_toPath namedP, components_toPath namedQ] at components
  exact List.map_inj_right (fun _ _ => Path.Component.name.inj) |>.mp (List.cons.inj components).2

/-- Nothing in the path of a place ends it early. -/
theorem end_not_mem_toPath {place : Place} (named : place.Named) :
    '\x00' ∉ place.toPath.text.toList := by
  have joined := Path.not_mem_intercalate (by decide) fun name mem => (named name mem).noEnd
  rw [toPath, String.toList_append, List.mem_append, not_or]
  exact ⟨by decide, joined⟩

end Place

/-! ## Canonical names -/

namespace Path

/-- Whether a path is spelled as that of a place, whatever may be there. -/
def IsCanonical (p : Path) : Prop := ∃ place : Place, place.Named ∧ p = place.toPath

/-- Canonical paths are known by what they say. -/
theorem IsCanonical.eq_of_same {p q : Path} (isP : p.IsCanonical) (isQ : q.IsCanonical)
    (same : p.same q = true) : p = q := by
  obtain ⟨place, named, rfl⟩ := isP
  obtain ⟨place', named', rfl⟩ := isQ
  rw [Place.eq_of_same named named' same]

end Path

end RouteTrees
