import RouteTrees.Proofs.Disk.Leads

/-!
# Writing a file

A file that has been written is where its path leads from then on, whatever links were followed to its
place and whether it was there before. So it holds what was written last, and to write it again is to
write it for the first time.
-/

namespace RouteTrees

/-! ## Putting a file at a place -/

namespace Node

@[simp] theorem lookup_setEntry_self (name : String) (node : Node) (es : List (String × Node)) :
    (setEntry name node es).lookup name = some node := by
  induction es with
  | nil => exact List.lookup_cons_self
  | cons e rest ih =>
    obtain ⟨key, n⟩ := e
    rw [setEntry]
    split
    · next same => rw [same, List.lookup_cons_self]
    · next differ =>
      rw [List.lookup_cons, beq_false_of_ne (Ne.symm differ)]
      exact ih

/-- Putting something under a name leaves the other names. -/
theorem lookup_setEntry_of_ne {name key : String} (ne : key ≠ name) (node : Node)
    (es : List (String × Node)) : (setEntry name node es).lookup key = es.lookup key := by
  induction es with
  | nil => rw [setEntry, List.lookup_cons, beq_false_of_ne ne]
  | cons e rest ih =>
    obtain ⟨other, n⟩ := e
    rw [setEntry]
    split
    · next same => rw [same, List.lookup_cons, List.lookup_cons, beq_false_of_ne ne]
    · rw [List.lookup_cons, List.lookup_cons, ih]

/-- What is put under a name last is what counts. -/
theorem setEntry_setEntry (name : String) (first second : Node) (es : List (String × Node)) :
    setEntry name second (setEntry name first es) = setEntry name second es := by
  induction es with
  | nil => exact if_pos rfl
  | cons e rest ih =>
    obtain ⟨key, n⟩ := e
    by_cases same : key = name
    · rw [setEntry, if_pos same, setEntry, if_pos same, setEntry, if_pos same]
    · rw [setEntry, if_neg same, setEntry, if_neg same, ih, setEntry, if_neg same]

theorem child?_put_cons (n : Node) (name : String) (rest : Place) (node : Node) :
    (n.put (name :: rest) node).child? name = some (((n.child? name).getD (dir [])).put rest node) := by
  rw [put, child?, lookup_setEntry_self]

@[simp] theorem at?_put_self (n : Node) (place : Place) (node : Node) :
    (n.put place node).at? place = some node := by
  induction place generalizing n with
  | nil => rfl
  | cons name rest ih => simp only [at?, child?_put_cons, ih]

/-- What is put last is what counts. -/
theorem put_put (n : Node) (place : Place) (first second : Node) :
    (n.put place first).put place second = n.put place second := by
  induction place generalizing n with
  | nil => rfl
  | cons name rest ih =>
    rw [put, child?_put_cons, Option.getD_some, ih, put, put, entries, setEntry_setEntry]

/-- What following a path can see of a node: what it holds by name is seen at the places of the names. -/
inductive Sight where
  | directory
  | file
  | link (target : String)

/-- What following a path can see of a node. -/
def sight : Node → Sight
  | dir _ => .directory
  | file _ => .file
  | link target => .link target

/-- Where a file can be put: below a directory, under a name that nothing or another file has. -/
structure HasRoomAt (n : Node) (place : Place) : Prop where
  parent : ∃ above name es, place = above ++ [name] ∧ n.at? above = some (dir es)
  free : ∀ m, n.at? place = some m → m.isFile = true

theorem child?_eq_lookup (n : Node) (name : String) : n.child? name = n.entries.lookup name := by
  cases n <;> rfl

theorem child?_put_of_ne {name key : String} (ne : key ≠ name) (n : Node) (rest : Place)
    (node : Node) : (n.put (name :: rest) node).child? key = n.child? key := by
  rw [put, child?, lookup_setEntry_of_ne ne, child?_eq_lookup]

/-- What is at a place is found below what its first name leads to. -/
theorem at?_cons_of_child? {n c : Node} {name : String} (child : n.child? name = some c)
    (rest : Place) : n.at? (name :: rest) = c.at? rest := by
  rw [at?, child]

/-- Below a file there is nothing. -/
theorem at?_cons_of_isFile {n : Node} (isFile : n.isFile = true) (name : String) (rest : Place) :
    n.at? (name :: rest) = none := by
  cases n with
  | file _ => rfl
  | link _ | dir _ => cases isFile

/-- A file that is put where there is room for it is all that changes on the ways to other places. -/
theorem sight_at?_put {n : Node} {place other : Place} (room : n.HasRoomAt place) (content : ByteArray)
    (ne : other ≠ place) :
    ((n.put place (file content)).at? other).map sight = (n.at? other).map sight := by
  obtain ⟨⟨above, name, es, spelled, there⟩, free⟩ := room
  subst spelled
  -- down to the directory in which the file is put; another way leaves this one at some name
  induction above generalizing n other with
  | nil =>
    cases there
    cases other with
    | nil => rfl
    | cons key rest =>
      by_cases same : key = name
      · subst same
        cases rest with
        | nil => exact absurd rfl ne
        | cons next rest =>
          rw [List.nil_append, at?_cons_of_child? (child?_put_cons ..)]
          cases child : (dir es).child? key with
          | none =>
            have nothing : (dir es).at? (key :: next :: rest) = none := by rw [at?, child]
            rw [nothing]
            rfl
          | some c =>
            have isFile := free c (at?_cons_of_child? child [])
            rw [at?_cons_of_child? child, at?_cons_of_isFile isFile]
            rfl
      · rw [List.nil_append, at?, at?, child?_put_of_ne same]
  | cons first above ih =>
    rw [at?] at there
    split at there
    · next c child =>
      cases other with
      | nil =>
        cases n with
        | dir _ => rfl
        | file _ | link _ => cases child
      | cons key rest =>
        by_cases same : key = first
        · subst same
          rw [List.cons_append, at?_cons_of_child? child, at?_cons_of_child? (child?_put_cons ..), child,
            Option.getD_some]
          exact ih there (fun whole => ne (congrArg (key :: ·) whole))
            fun m found => free m ((at?_cons_of_child? child _).trans found)
        · rw [List.cons_append, at?, at?, child?_put_of_ne same]
    · cases there

/-- A directory stays where it is if a file is put elsewhere, and under its names is what was there, but
for the file. -/
theorem at?_put_of_dir {n : Node} {place other : Place} {es : List (String × Node)}
    (room : n.HasRoomAt place) (content : ByteArray) (there : n.at? other = some (dir es)) :
    ∃ es', (n.put place (file content)).at? other = some (dir es') ∧ ∀ name,
      (other ++ [name] = place → es'.lookup name = some (file content)) ∧
      (other ++ [name] ≠ place → (es'.lookup name).map sight = (es.lookup name).map sight) := by
  have ne : other ≠ place := fun same => Bool.noConfusion (room.free _ (same ▸ there))
  have seen := sight_at?_put room content ne
  rw [there] at seen
  obtain ⟨m, there', isDir⟩ := Option.map_eq_some_iff.mp seen
  cases m with
  | file _ | link _ => cases isDir
  | dir es' =>
    refine ⟨es', there', fun name => ⟨fun same => ?_, fun differ => ?_⟩⟩
    · rw [← at?_append_singleton there', same, at?_put_self]
    · rw [← at?_append_singleton there', ← at?_append_singleton there]
      exact sight_at?_put room content differ

end Node

/-! ## Following a path to a file that has been put -/

namespace Disk

variable {root : Node} {budget : Nat} {place last : Place} {pending : List String}

/-- There is room for a file where a name is absent. -/
theorem hasRoomAt_of_absent {final slashed : Bool}
    (absent : follow root final budget place pending = .ok (.absent last slashed)) :
    root.HasRoomAt last := by
  fun_induction follow root final budget place pending with
  | case1 | case4 | case6 | case7 | case8 | case9 | case12 | case13 => cases absent
  | case2 _ _ _ _ _ _ _ ih => exact ih absent
  | case3 _ _ _ _ _ _ ih => exact ih absent
  | case5 _ _ s _ entries there _ _ _ missing _ =>
    cases absent
    refine ⟨⟨_, s, entries, rfl, there⟩, fun m found => ?_⟩
    rw [Node.at?_append_singleton there, missing] at found
    cases found
  | case10 _ _ _ _ _ _ _ _ _ _ _ _ _ _ ih =>
    rw [dite_eq_ite] at ih
    exact ih absent
  | case11 _ _ _ _ _ _ _ _ _ _ _ _ ih => exact ih absent

/-- There is room for a file where one is, unless the whole disk is that file. -/
theorem hasRoomAt_of_file {content : ByteArray} (found : root.at? last = some (.file content))
    (ne : last ≠ []) : root.HasRoomAt last := by
  obtain ⟨above, name, rfl⟩ := (List.eq_nil_or_concat last).resolve_left ne
  rw [List.concat_eq_append] at found ⊢
  refine ⟨?_, fun m there => ?_⟩
  · have split := found
    rw [Node.at?_append] at split
    obtain ⟨n, there, child⟩ := Option.bind_eq_some_iff.mp split
    cases n with
    | dir es => exact ⟨above, name, es, rfl, there⟩
    | file _ | link _ => cases child
  · cases found.symm.trans there
    rfl

/-- What is seen as a link is that link. -/
theorem link_of_sight {found : Option Node} {target : String}
    (same : found.map Node.sight = (some (Node.link target)).map Node.sight) :
    found = some (.link target) := by
  obtain ⟨n, rfl, isLink⟩ := Option.map_eq_some_iff.mp same
  cases n <;> cases isLink
  rfl

/-- A way to where a file is put leads to the file. -/
theorem follow_put {spot : Spot} (room : root.HasRoomAt last) (content : ByteArray)
    (followed : follow root true budget place pending = .ok spot)
    (here : spot = .found last ∨ spot = .absent last false) :
    follow (root.put last (.file content)) true budget place pending = .ok (.found last) := by
  -- the way is followed once more: what it passes, directories and links, looks as before
  fun_induction follow root true budget place pending with
  | case1 =>
    cases followed
    rw [follow, here.resolve_right Spot.noConfusion]
  | case2 _ _ _ _ _ there idle ih =>
    obtain ⟨entries, there', -⟩ := Node.at?_put_of_dir room content there
    rw [follow, there']
    simp only [idle, if_true]
    exact ih followed
  | case3 _ _ _ _ there _ ih =>
    obtain ⟨entries, there', -⟩ := Node.at?_put_of_dir room content there
    rw [follow, there']
    simp only [Path.isIdle, String.reduceEq, decide_false, Bool.or_self,
      Bool.false_eq_true, if_false, if_true]
    exact ih followed
  | case4 | case6 | case8 | case9 | case12 | case13 => cases followed
  | case5 _ place s rest _ there busy notUp short _ _ =>
    cases followed
    obtain ⟨same, ends⟩ := Spot.absent.inj (here.resolve_left Spot.noConfusion)
    obtain ⟨entries, there', seen⟩ := Node.at?_put_of_dir room content there
    rw [Bool.not_eq_false'] at ends
    cases List.isEmpty_iff.mp ends
    rw [follow, there']
    simp only [busy, notUp, short, (seen s).1 same, Bool.false_eq_true, if_false]
    rw [follow, same]
  | case7 _ _ _ _ _ _ _ _ _ _ _ early => cases (Bool.and_eq_true_iff.mp early).2
  | case10 place s _ _ there busy notUp short _ isLink _ _ _ ne ih =>
    have elsewhere : place ++ [s] ≠ last := by
      intro same
      have isFile := room.free _ (same ▸ (Node.at?_append_singleton there s).trans isLink)
      cases isFile
    obtain ⟨entries, there', seen⟩ := Node.at?_put_of_dir room content there
    have isLink' := link_of_sight (isLink ▸ (seen s).2 elsewhere)
    rw [follow, there']
    simp only [busy, notUp, short, isLink', ne, Bool.not_true, Bool.and_false, Bool.false_eq_true,
      if_false]
    rw [dite_eq_ite] at ih
    exact ih followed
  | case11 _ place s _ _ there busy notUp short n plain isNode ih =>
    obtain ⟨entries, there', seen⟩ := Node.at?_put_of_dir room content there
    obtain ⟨m, isNode', plain'⟩ : ∃ m, entries.lookup s = some m ∧ ∀ target, m ≠ .link target := by
      by_cases same : place ++ [s] = last
      · exact ⟨_, (seen s).1 same, fun _ => Node.noConfusion⟩
      · have seen := (seen s).2 same
        rw [isNode] at seen
        obtain ⟨m, found, alike⟩ := Option.map_eq_some_iff.mp seen
        refine ⟨m, found, ?_⟩
        rintro target rfl
        cases n with
        | link target => exact plain target rfl
        | file _ | dir _ => cases alike
    rw [follow, there']
    simp only [busy, notUp, short, isNode', if_false]
    exact ih followed

/-! ## Writing -/

variable {d d' : Disk} {p : Path} {content : ByteArray}

/-- Whether what is written at a path comes to a place. -/
structure WritesAt (d : Disk) (p : Path) (place : Place) : Prop where
  room : d.root.HasRoomAt place
  led : ∃ spot, d.spot true p = .ok spot ∧ (spot = .found place ∨ spot = .absent place false)

/-- A path leads somewhere only if the disk is not a mere file. -/
theorem not_isFile_of_locate (located : d.locate true p = .ok place) : d.root.isFile = false := by
  obtain ⟨-, -, left, leads⟩ := locate_iff.mp located
  obtain ⟨s, rest, segments⟩ := List.exists_cons_of_ne_nil p.segments_ne_nil
  rw [segments] at leads
  have held : ∃ entries, d.root.at? (d.start p) = some (.dir entries) := by
    cases leads <;> exact ⟨_, by assumption⟩
  obtain ⟨entries, there⟩ := held
  refine Bool.eq_false_iff.mpr fun isFile => ?_
  cases start : d.start p with
  | nil =>
    rw [start] at there
    rw [Option.some.inj there] at isFile
    cases isFile
  | cons name rest =>
    rw [start, Node.at?_cons_of_isFile isFile] at there
    cases there

/-- A file is written where its path leads to nothing, if it could be made there. -/
theorem WritesAt.of_absent (absent : d.spot true p = .ok (.absent place false)) :
    d.WritesAt p place :=
  ⟨hasRoomAt_of_absent (spot_eq_ok_iff.mp absent).2.2, _, absent, .inr rfl⟩

/-- A file is written where its path leads to a file. -/
theorem WritesAt.of_file {old : ByteArray} (found : d.spot true p = .ok (.found place))
    (there : d.root.at? place = some (.file old)) : d.WritesAt p place := by
  refine ⟨hasRoomAt_of_file there ?_, _, found, .inl rfl⟩
  rintro rfl
  have notFile := not_isFile_of_locate (locate_eq_ok_iff.mpr found)
  rw [Option.some.inj there] at notFile
  cases notFile

/-- A file is written where its path leads, over another one or under the name that is absent there. -/
theorem write_eq_ok_iff :
    d.write p content = .ok d' ↔ ∃ place, d.WritesAt p place ∧ d' = d.put (.file content) place := by
  refine ⟨fun written => ?_, ?_⟩
  · rw [write] at written
    split at written
    · cases written
    · next place slashed absent =>
      cases slashed with
      | true => cases written
      | false =>
        cases written
        exact ⟨place, .of_absent absent, rfl⟩
    · next place found =>
      obtain ⟨n, there, plain⟩ := isPlain_of_locate (locate_eq_ok_iff.mpr found)
      cases n with
      | link target => exact absurd rfl (plain target)
      | dir entries =>
        simp only [there] at written
        cases written
      | file old =>
        simp only [there] at written
        cases written
        exact ⟨place, .of_file found there, rfl⟩
  · rintro ⟨place, ⟨room, spot, led, rfl | rfl⟩, rfl⟩
    · have notDir : ∀ entries, d.root.at? place ≠ some (.dir entries) := fun entries there =>
        Bool.noConfusion (room.free _ there)
      rw [write, led]
      dsimp only
      split
      · next entries there => exact absurd there (notDir entries)
      · rfl
    · rw [write, led]
      rfl

/-- A path leads to the file that was put where it led. -/
theorem WritesAt.spot_put (writes : d.WritesAt p place) (content : ByteArray) :
    (d.put (.file content) place).spot true p = .ok (.found place) := by
  obtain ⟨room, spot, led, here⟩ := writes
  obtain ⟨ne, free, followed⟩ := spot_eq_ok_iff.mp led
  exact spot_eq_ok_iff.mpr ⟨ne, free, follow_put room content followed here⟩

/-- What has been written is read. -/
theorem read_of_write (written : d.write p content = .ok d') : d'.read p = .ok content := by
  obtain ⟨place, writes, rfl⟩ := write_eq_ok_iff.mp written
  have there : (d.put (.file content) place).root.at? place = some (.file content) :=
    Node.at?_put_self ..
  rw [read, locate_eq_ok_iff.mpr (writes.spot_put content)]
  simp only [there]

/-- What is written over is as if it had not been written. -/
theorem write_of_write (written : d.write p content = .ok d') (next : ByteArray) :
    d'.write p next = d.write p next := by
  obtain ⟨place, writes, rfl⟩ := write_eq_ok_iff.mp written
  have there : (d.put (.file content) place).root.at? place = some (.file content) :=
    Node.at?_put_self ..
  rw [write_eq_ok_iff.mpr ⟨place, writes, rfl⟩]
  refine write_eq_ok_iff.mpr ⟨place, .of_file (writes.spot_put content) there, ?_⟩
  rw [put, put, put, Node.put_put]

/-- Whether a file can be written does not depend on what it is to hold. -/
theorem exists_write_of_write (written : d.write p content = .ok d') (other : ByteArray) :
    ∃ d'', d.write p other = .ok d'' := by
  obtain ⟨place, writes, -⟩ := write_eq_ok_iff.mp written
  exact ⟨_, write_eq_ok_iff.mpr ⟨place, writes, rfl⟩⟩

end Disk

end RouteTrees
