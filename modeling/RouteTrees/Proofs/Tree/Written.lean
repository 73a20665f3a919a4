import RouteTrees.Proofs.Json.Layout
import RouteTrees.Proofs.Tree.Outline
import RouteTrees.Tree.Written

/-!
# Reading a tree that has been written

A nested tree that is written down reads back as it was, as long as no way from its root has more than 63
nodes; beyond that its text is malformed to the reader. A node takes two levels of nesting, its own and
that of its children, which are written even where there are none. However the tree is laid out, and
whatever way the characters within its texts are put in, the same is read.
-/

namespace RouteTrees

open Json (Read Numberless)
open Json.Read

theorem Kind.reads_read (depth : Nat) (k : Kind) : Reads (Kind.read depth) k.toJson (.ok k) := by
  have known : Kind.known.lookup k.name = some k := by cases k <;> rfl
  exact reads_variant depth known

namespace Nested

/-! ## Fields -/

namespace Draft

variable (depth : Nat) (child : Read Nested)

/-- All that is read of a node, from what it was written from. -/
def complete (name : String) (kind : Option Kind) (path : Option String) (cycle : Bool)
    (children : List Nested) : Draft :=
  ⟨some name, kind.map some, path.map some, if cycle then some true else none, some children⟩

/-- A draft with a name is finished. -/
theorem finish?_complete (name : String) (kind : Option Kind) (path : Option String) (cycle : Bool)
    (children : List Nested) :
    (complete name kind path cycle children).finish? =
      some (.node name kind path cycle children) := by
  cases kind <;> cases path <;> cases cycle <;> rfl

/-- A field that has not been read before is read behind its colon. -/
theorem reads_once (name : String) {read : Read Draft} {v : Json} {result : Except Json.Error Draft}
    (given : Reads read v result) : ReadsNamed (once name false read) v result := given.behind_colon

/-- The name is read. -/
theorem name_read (name : String) :
    ReadsFields (readField depth child) {} [("name", .text name)]
      (.ok ⟨some name, none, none, none, none⟩) := by
  apply ReadsFields.single
  apply reads_once "name"
  exact (reads_expectText _ name).map _

/-- The kind is read, if there is one. -/
theorem kind_read (name : String) (kind : Option Kind) :
    ReadsFields (readField depth child) ⟨some name, none, none, none, none⟩
      (kind.toList.map fun k => ("componentType", k.toJson))
      (.ok ⟨some name, kind.map some, none, none, none⟩) := by
  cases kind with
  | none => exact .nil
  | some k =>
    apply ReadsFields.single
    apply reads_once "componentType"
    exact ((k.reads_read depth).optional nofun).map _

/-- The path is read, if there is one. -/
theorem path_read (name : String) (kind : Option (Option Kind)) (path : Option String) :
    ReadsFields (readField depth child) ⟨some name, kind, none, none, none⟩
      (path.toList.map fun p => ("path", .text p))
      (.ok ⟨some name, kind, path.map some, none, none⟩) := by
  cases path with
  | none => exact .nil
  | some p =>
    apply ReadsFields.single
    apply reads_once "path"
    exact ((reads_expectText _ p).optional nofun).map _

/-- Whether the node closes a cycle is read, if it does. -/
theorem cycle_read (name : String) (kind : Option (Option Kind)) (path : Option (Option String))
    (cycle : Bool) :
    ReadsFields (readField depth child) ⟨some name, kind, path, none, none⟩
      (if cycle then [("cycle", .boolean true)] else [])
      (.ok ⟨some name, kind, path, if cycle then some true else none, none⟩) := by
  cases cycle with
  | false => exact .nil
  | true =>
    apply ReadsFields.single
    apply reads_once "cycle"
    exact (reads_expectBool true).map _

variable {depth child}

/-- The fields of a node are read in the order in which they are written, if its children are. -/
theorem fields_read (name : String) (kind : Option Kind) (path : Option String) (cycle : Bool)
    {children : List Json} (result : Except Json.Error (List Nested))
    (given : ∀ d : Draft, Reads (d.readChildren depth child) (.list children)
      (result.map fun ns => { d with children := some ns })) :
    ReadsFields (readField depth child) {}
      ([("name", .text name)] ++ (kind.toList.map fun k => ("componentType", k.toJson)) ++
        (path.toList.map fun p => ("path", .text p)) ++
        (if cycle then [("cycle", .boolean true)] else []) ++ [("children", .list children)])
      (result.map (complete name kind path cycle)) := by
  have named := name_read depth child name
  have kinded := named.append (kind_read depth child name kind)
  have placed := kinded.append (path_read depth child name (kind.map some) path)
  have marked := placed.append (cycle_read depth child name (kind.map some) (path.map some) cycle)
  refine marked.append (ReadsFields.single ?_)
  exact reads_once "children" (given _)

/-- Where no level of nesting is left, there are no children, not even none. -/
theorem readChildren_zero (d : Draft) (child : Read Nested) (children : List Json) :
    Reads (d.readChildren 0 child) (.list children) (.error .malformed) := by
  intro gap text blank spelled rest
  cases spelled
  rw [readChildren, List.append_assoc, peek_bind_append blank, List.cons_append, peek_bind_cons rfl]
  rfl

/-- Children are read one after the other. -/
theorem readChildren_read (d : Draft) (depth : Nat) {child : Read Nested} {children : List Json}
    {result : Except Json.Error (List Nested)}
    (given : ReadsItems (fun found => do pure (found ++ [← child])) [] children result) :
    Reads (d.readChildren (depth + 1) child) (.list children)
      (result.map fun ns => { d with children := some ns }) := by
  intro gap text blank spelled rest
  cases spelled with
  | list spelled =>
    rw [readChildren, List.append_assoc, peek_bind_append blank, List.cons_append, peek_bind_cons rfl]
    exact (given.gives_items spelled).map (fun ns => { d with children := some ns }) rest

end Draft

/-! ## Nodes -/

/-- Where no level of nesting is left, there is no node. -/
theorem readWith_zero (child : Read Nested) (fs : List (String × Json)) :
    Reads (readWith 0 child) (.object fs) (.error .malformed) := by
  intro gap text blank spelled rest
  cases spelled
  rw [readWith, List.append_assoc, peek_bind_append blank, List.cons_append, peek_bind_cons rfl]
  rfl

/-- A node is read as its fields are. -/
theorem readWith_read {depth : Nat} {child : Read Nested} {fs : List (String × Json)} (name : String)
    (kind : Option Kind) (path : Option String) (cycle : Bool)
    (result : Except Json.Error (List Nested))
    (given : ReadsFields (Draft.readField depth child) {} fs
      (result.map (Draft.complete name kind path cycle))) :
    Reads (readWith (depth + 1) child) (.object fs) (result.map (node name kind path cycle)) := by
  intro gap text blank spelled rest
  cases spelled with
  | object spelled =>
    have read := given.fields_eq spelled rest
    rw [readWith, List.append_assoc, peek_bind_append blank, List.cons_append, peek_bind_cons rfl]
    simp only [if_neg (Nat.succ_ne_zero depth), bind_apply, drop, List.tail_cons, Nat.add_sub_cancel,
      read]
    cases result with
    | error e => rfl
    | ok children =>
      simp only [Except.map, Draft.finish?_complete]
      rfl

mutual

/-- A tree is read back if there are two levels of nesting for each node of its longest way. -/
theorem reads_read : ∀ (n : Nested) (depth : Nat), Reads (read depth) n.toJson
    (if 2 * (n.height + 1) ≤ depth then .ok n else .error .malformed)
  | node name kind path cycle children, 0 => by
    rw [if_neg (by omega), toJson]
    exact readWith_zero _ _
  | node name kind path cycle children, 1 => by
    rw [if_neg (by omega), toJson]
    refine readWith_read name kind path cycle (.error .malformed) ?_
    refine Draft.fields_read name kind path cycle (.error .malformed) fun d => ?_
    exact d.readChildren_zero _ _
  | node name kind path cycle children, depth + 2 => by
    have given := reads_readAll children [] depth
    have fits : 2 * (height (node name kind path cycle children) + 1) ≤ depth + 2 ↔
        2 * heightBelow children ≤ depth := by
      rw [height]
      omega
    rw [List.nil_append] at given
    have fields := Draft.fields_read name kind path cycle _ fun d => d.readChildren_read depth given
    have whole := readWith_read name kind path cycle _ fields
    simp only [fits, toJson]
    by_cases enough : 2 * heightBelow children ≤ depth
    · rw [if_pos enough] at whole ⊢
      exact whole
    · rw [if_neg enough] at whole ⊢
      exact whole

/-- Trees are read back one after the other, if each is within the depth. -/
theorem reads_readAll : ∀ (ns found : List Nested) (depth : Nat),
    ReadsItems (fun found => do pure (found ++ [← read depth])) found (toJsonAll ns)
      (if 2 * heightBelow ns ≤ depth then .ok (found ++ ns) else .error .malformed)
  | [], found, depth => by
    rw [heightBelow, if_pos (Nat.zero_le depth), List.append_nil]
    exact .nil
  | n :: ns, found, depth => by
    have first := (reads_read n depth).map fun n => found ++ [n]
    rw [toJsonAll, heightBelow]
    by_cases fits : 2 * (n.height + 1) ≤ depth
    · have rest := reads_readAll ns (found ++ [n]) depth
      have both : 2 * max (n.height + 1) (heightBelow ns) ≤ depth ↔ 2 * heightBelow ns ≤ depth := by
        omega
      rw [if_pos fits] at first
      rw [List.append_assoc] at rest
      simp only [both]
      exact .cons first rest
    · rw [if_neg fits] at first
      rw [if_neg (by omega)]
      exact .failed first

end

/-! ## Texts of a tree -/

mutual

/-- A tree is written without numbers, by induction on it. -/
theorem numberless_toJson : ∀ n : Nested, n.toJson.Numberless
  | .node name kind path cycle children => by
    rw [toJson]
    refine .object fun f mem => ?_
    simp only [List.mem_append, List.mem_singleton, List.mem_map] at mem
    rcases mem with (((rfl | ⟨k, -, rfl⟩) | ⟨p, -, rfl⟩) | marked) | rfl
    · exact .text name
    · exact .text k.name
    · exact .text p
    · cases cycle with
      | false => cases marked
      | true =>
        cases List.mem_singleton.mp marked
        exact .boolean true
    · exact .list (numberless_toJsonAll children)

theorem numberless_toJsonAll : ∀ ns : List Nested, ∀ v ∈ toJsonAll ns, v.Numberless
  | [] => nofun
  | n :: ns => by
    rw [toJsonAll, List.forall_mem_cons]
    exact ⟨numberless_toJson n, numberless_toJsonAll ns⟩

end

/-- No tree is written as null. -/
theorem toJson_ne_null (n : Nested) : n.toJson ≠ .null := by
  obtain ⟨name, kind, path, cycle, children⟩ := n
  rw [toJson]
  nofun

theorem gives_read_respelled {put : Char → List Char} (respells : Respells put) (n : Nested) (depth : Nat) :
    Gives (read depth) (n.toJson.compact.flatMap put)
      (if 2 * (n.height + 1) ≤ depth then .ok n else .error .malformed) :=
  reads_read n depth [] _ isGap_nil (spells_compact respells n.numberless_toJson)

/-- A tree is read back from its compact text, if it is within the depth. -/
theorem gives_read (n : Nested) (depth : Nat) : Gives (read depth) n.toJson.compact
    (if 2 * (n.height + 1) ≤ depth then .ok n else .error .malformed) := by
  have given := gives_read_respelled respells_self n depth
  rwa [List.flatMap_singleton'] at given

/-- A tree whose longest way from the root has no more than 63 nodes is read back as it was written; the
text of a higher one is malformed. -/
theorem ofText_text (n : Nested) :
    ofText n.text = if n.height + 1 ≤ 63 then .ok n else .error .malformed := by
  have levels : 2 * (n.height + 1) ≤ depthLimit ↔ n.height + 1 ≤ 63 := by
    rw [depthLimit]
    omega
  rw [ofText, text, (gives_read n depthLimit).parse_eq]
  simp only [levels]

end Nested

end RouteTrees
