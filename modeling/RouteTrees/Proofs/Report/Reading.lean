import Mathlib.Data.Nat.Find
import RouteTrees.Command.Run
import RouteTrees.Proofs.Path.Characters
import RouteTrees.Proofs.Report.Drawing

/-!
# What is read from a drawing

Without colour, and if no name and no path breaks a line, the lines of a drawing can be told apart, and so can
what each begins with: whatever a node is called, its name stands behind the connector. The groups before the
connector say how deep a node is, and its parent is that of the last line before its own which is less deep.
The drawing alone tells where each of its lines hangs.
-/

namespace RouteTrees

/-! ## Texts in lines -/

namespace Command

theorem splitLines_append_break {line : List Char} (free : '\n' ∉ line) (rest : List Char) :
    splitLines (line ++ '\n' :: rest) = line :: splitLines rest := by
  induction line with
  | nil => rfl
  | cons c cs ih =>
    obtain ⟨ne, later⟩ := not_or.mp (mt List.mem_cons.mpr free)
    rw [List.cons_append, splitLines, ih later]
    exact fun same => ne same.symm

/-- Lines without breaks come back from the text that they make. -/
theorem splitLines_unlines {ls : List String} (free : ∀ l ∈ ls, '\n' ∉ l.toList) :
    splitLines (Report.unlines ls).toList = ls.map String.toList := by
  induction ls with
  | nil => rfl
  | cons l ls ih =>
    obtain ⟨first, later⟩ := List.forall_mem_cons.mp free
    have text : (Report.unlines (l :: ls)).toList =
        l.toList ++ '\n' :: (Report.unlines ls).toList := by
      rw [Report.unlines, List.map_cons, String.join_cons, String.toList_append, String.toList_append,
        List.append_assoc]
      rfl
    rw [text, splitLines_append_break first, ih later, List.map_cons]

end Command

/-- Whether what is shown of a component fits on one line. -/
def Component.OnOneLine (c : Component) : Prop := '\n' ∉ c.name.toList ∧ '\n' ∉ c.path.text.toList

instance (c : Component) : Decidable c.OnOneLine :=
  inferInstanceAs (Decidable ('\n' ∉ c.name.toList ∧ '\n' ∉ c.path.text.toList))

namespace Report

variable {t : Tree} {id p : NodeId} {n : TreeNode} {root : Path} {route : String}

/-! ## Reading -/

/-- What stands before the connector of a line. -/
def beforeConnector (line : List Char) : List Char := line.takeWhile fun c => c ≠ '└' && c ≠ '├'

/-- How deep the node of a line is: the groups before its connector have four characters each. -/
def depthOfLine (line : List Char) : Nat := (beforeConnector line).length / 4 + 1

/-- How deep the nodes of a drawing are, line by line. The head line is that of the root, whatever it says,
and the last line is empty. -/
def depths (text : String) : List Nat :=
  match Command.splitLines text.toList with
  | [] => []
  | _ :: ls => 0 :: ls.dropLast.map depthOfLine

/-- The number of the last among some depths up to one of them that is less than it. -/
def lastAbove (ds : List Nat) (k : Nat) : Nat :=
  Nat.findGreatest (fun i => ds[i]?.getD 0 < ds[k]?.getD 0) k

/-- The number of the line from which a line of a drawing hangs. -/
def lineAbove (text : String) (k : Nat) : Nat := lastAbove (depths text) k

/-! ## Lines without colour -/

/-- A group has four characters before the connector. -/
theorem length_beforeConnector_group (b : Bool) (rest : List Char) :
    (beforeConnector ((group b).toList ++ rest)).length = 4 + (beforeConnector rest).length := by
  have plain : (group b).toList.all (fun c => c ≠ '└' && c ≠ '├') = true := by cases b <;> rfl
  have four : (group b).toList.length = 4 := by cases b <;> rfl
  rw [beforeConnector, List.takeWhile_append_of_pos (List.all_eq_true.mp plain), List.length_append, four]
  rfl

theorem length_beforeConnector_groups (as : List NodeId) (rest : List Char) :
    (beforeConnector ((String.join (as.map fun a => group (t.isLast a))).toList ++ rest)).length =
      4 * as.length + (beforeConnector rest).length := by
  induction as with
  | nil => simp
  | cons a as ih =>
    rw [List.map_cons, String.join_cons, String.toList_append, List.append_assoc,
      length_beforeConnector_group, ih, List.length_cons]
    omega

theorem kindLabel_plain (kind : Option Kind) : kindLabel false kind = kind.elim "?" Kind.name := by
  cases kind with
  | none => rfl
  | some kind => cases kind <;> rfl

/-- A line without colour: the groups, the connector, the name, and what is known of the file. -/
theorem lineOf_plain (found : t.node? id = some n) : lineOf false root t id =
    String.join (groups t id) ++ (if t.isLast id then "└──" else "├──") ++ " " ++ n.component.name ++
      if n.cycle then " (cycle)" else
        " [" ++ n.component.kind.elim "?" Kind.name ++ "] " ++ relativeText root n.component.path := by
  have line : lineOf false root t id = nodeLine false root (pending t id) n := by
    simp only [lineOf, found]
  rw [line, nodeLine, nodeText, kindLabel_plain]
  cases n.cycle <;> simp only [if_true, if_false, Bool.false_eq_true, String.append_assoc] <;> rfl

/-- The line of a node shows how deep it is. -/
theorem depthOfLine_lineOf (linked : t.Linked) (parent : t.parent? id = some p) :
    depthOfLine (lineOf false root t id).toList = t.depthOf id := by
  obtain ⟨n, found⟩ := Tree.exists_node? (Tree.lt_size_of_parent? parent)
  have length := length_groups linked parent
  have stops (rest : List Char) :
      beforeConnector ((if t.isLast id then "└──" else "├──").toList ++ rest) = [] := by
    cases t.isLast id <;> rfl
  obtain ⟨rest, begins⟩ : ∃ rest, (lineOf false root t id).toList = (String.join (groups t id)).toList ++
      ((if t.isLast id then "└──" else "├──").toList ++ rest) := by
    rw [lineOf_plain found]
    simp only [String.toList_append, List.append_assoc]
    exact ⟨_, rfl⟩
  rw [groups, List.length_map] at length
  rw [depthOfLine, begins, groups, length_beforeConnector_groups, stops, List.length_nil]
  omega

theorem not_mem_relativeText (free : '\n' ∉ n.component.path.text.toList) :
    '\n' ∉ (relativeText root n.component.path).toList := by
  rw [relativeText]
  cases led : n.component.path.stripBase? root with
  | none => exact free
  | some q => exact Path.not_mem_stripBase? (by decide) free led

theorem not_mem_label (kind : Option Kind) : '\n' ∉ (kind.elim "?" Kind.name).toList := by
  cases kind with
  | none => decide
  | some kind => cases kind <;> decide

/-- A node is drawn on one line if what is shown of it fits on one. -/
theorem not_mem_lineOf (found : t.node? id = some n) (oneLine : n.component.OnOneLine) :
    '\n' ∉ (lineOf false root t id).toList := by
  have blank : '\n' ∉ (String.join (groups t id)).toList := by
    rw [String.toList_join, groups, List.flatMap_map, List.mem_flatMap]
    rintro ⟨a, -, mem⟩
    revert mem
    cases t.isLast a <;> decide
  have connector : '\n' ∉ (if t.isLast id then "└──" else "├──").toList := by
    cases t.isLast id <;> decide
  have known : '\n' ∉ (if n.cycle then " (cycle)" else " [" ++ n.component.kind.elim "?" Kind.name ++ "] " ++
      relativeText root n.component.path).toList := by
    cases n.cycle with
    | true =>
      rw [if_pos rfl]
      decide
    | false => simp [not_mem_label, not_mem_relativeText oneLine.2]
  rw [lineOf_plain found]
  simp only [String.toList_append, List.mem_append, not_or]
  exact ⟨⟨⟨⟨blank, connector⟩, by decide⟩, oneLine.1⟩, known⟩

/-! ## The lines of a drawing -/

section Lines

variable {head : TreeNode} {others : List NodeId}

/-- A drawing comes apart into the lines of which it was made. -/
theorem splitLines_drawing (drawable : t.Drawable)
    (oneLine : ∀ id n, t.node? id = some n → n.component.OnOneLine) (free : '\n' ∉ route.toList)
    (found : t.node? 0 = some head) (listed : t.preorder = 0 :: others) :
    Command.splitLines (drawing false root route t).toList =
      (headLine false root route head.component :: others.map (lineOf false root t) ++ [""]).map
        String.toList := by
  obtain ⟨others', listed', inside⟩ := drawable.linked.exists_preorder
  obtain ⟨-, rfl⟩ := List.cons.inj (listed.symm.trans listed')
  have first : '\n' ∉ (headLine false root route head.component).toList := by
    rw [headLine, kindLabel_plain]
    simp [Style.paint, free, not_mem_label, not_mem_relativeText (oneLine 0 head found).2]
  rw [drawing_eq drawable false root route found listed, Command.splitLines_unlines]
  rw [List.cons_append, List.forall_mem_cons, List.forall_mem_append, List.forall_mem_map,
    List.forall_mem_singleton]
  refine ⟨first, fun id mem => ?_, List.not_mem_nil⟩
  obtain ⟨n, found'⟩ := Tree.exists_node? (inside id mem).2
  exact not_mem_lineOf found' (oneLine id n found')

/-- The depths that a drawing shows are those of its nodes in the order of the visit. -/
theorem depths_drawing (drawable : t.Drawable)
    (oneLine : ∀ id n, t.node? id = some n → n.component.OnOneLine) (free : '\n' ∉ route.toList) :
    depths (drawing false root route t) = t.preorder.map t.depthOf := by
  have linked := drawable.linked
  obtain ⟨head, found⟩ := Tree.exists_node? linked.nonempty
  obtain ⟨others, listed, inside⟩ := linked.exists_preorder
  rw [depths, splitLines_drawing drawable oneLine free found listed, listed, List.map_cons,
    linked.depthOf_zero]
  simp only [List.cons_append, List.map_cons, List.map_append, List.map_nil, List.dropLast_concat,
    List.map_map]
  congr 1
  refine List.map_congr_left fun id mem => ?_
  obtain ⟨p, -, parent⟩ := linked.below id (inside id mem).1 (inside id mem).2
  exact depthOfLine_lineOf linked parent

end Lines

/-- The last above an entry is found where all between the two are as deep as the entry. -/
theorem lastAbove_eq {ds before between after : List Nat} {d e : Nat}
    (whole : ds = before ++ d :: (between ++ e :: after)) (less : d < e) (deep : ∀ x ∈ between, e ≤ x) :
    lastAbove ds (before.length + 1 + between.length) = before.length := by
  have above : ds[before.length]? = some d := by simp [whole]
  have behind (j : Nat) : ds[before.length + 1 + j]? = (between ++ e :: after)[j]? := by
    rw [whole, Nat.add_assoc, Nat.add_comm 1 j, List.getElem?_append_right (Nat.le_add_right _ _),
      Nat.add_sub_cancel_left, List.getElem?_cons_succ]
  have entry : (between ++ e :: after)[between.length]? = some e := by simp
  rw [lastAbove, Nat.findGreatest_eq_iff]
  refine ⟨by omega, fun _ => ?_, fun i later le => ?_⟩
  · rw [above, behind, entry]
    exact less
  · obtain ⟨j, rfl⟩ := Nat.exists_eq_add_of_le later
    rw [behind, behind, entry, Nat.not_lt]
    rcases Nat.lt_or_eq_of_le (Nat.le_of_add_le_add_left le) with inside | last
    · rw [List.getElem?_append_left inside, List.getElem?_eq_getElem inside]
      exact deep _ (List.getElem_mem inside)
    · rw [last, entry]

/-- The line from which the line of a node hangs is that of its parent. -/
theorem preorder_lineAbove (drawable : t.Drawable)
    (oneLine : ∀ id n, t.node? id = some n → n.component.OnOneLine) (free : '\n' ∉ route.toList) {k : Nat}
    (drawn : t.preorder[k]? = some id) (parent : t.parent? id = some p) :
    t.preorder[lineAbove (drawing false root route t) k]? = some p := by
  have linked := drawable.linked
  obtain ⟨before, between, after, whole, deeper⟩ := linked.exists_preorder_eq parent
  have place : k = before.length + 1 + between.length := by
    have here : t.preorder[before.length + 1 + between.length]? = some id := by
      rw [whole]
      simp [Nat.add_assoc, Nat.add_comm 1]
    have lt := (List.getElem?_eq_some_iff.mp drawn).1
    exact (List.getElem?_inj lt linked.nodup_preorder).mp (drawn.trans here.symm)
  have depth : t.depthOf id = t.depthOf p + 1 := linked.depthOf_eq parent
  have shown : depths (drawing false root route t) = before.map t.depthOf ++
      t.depthOf p :: (between.map t.depthOf ++ t.depthOf id :: after.map t.depthOf) := by
    rw [depths_drawing drawable oneLine free, whole]
    simp only [List.map_append, List.map_cons]
  have above := lastAbove_eq shown (depth ▸ Nat.lt_succ_self _)
    (List.forall_mem_map.mpr fun a inside => depth ▸ deeper a inside)
  rw [List.length_map, List.length_map] at above
  rw [lineAbove, place, above, whole]
  simp

/-- Without colour, and if what is shown of each node fits on one line, a tree is drawn as its head line, one
line for each other node in the order of the visit, and an empty line. A line has a group of four characters
for each depth above that of its node but the root's, blank if the node at that depth on the way is a last
child; then the connector, the name, and unless the node closes a cycle its kind and its path, from the root of
the project on if it is below that. If the route is on one line too, the text comes apart into these lines, and
tells of each of them from which other it hangs: that is the line of the parent. -/
theorem drawing_shows_tree (drawable : t.Drawable)
    (oneLine : ∀ id n, t.node? id = some n → n.component.OnOneLine) (root : Path) (route : String) :
    ∃ (head : TreeNode) (others : List NodeId) (top : String) (line : NodeId → String),
      t.node? 0 = some head ∧ t.preorder = 0 :: others ∧ t.preorder.Perm (List.range t.size) ∧
      top = route ++ " [" ++ head.component.kind.elim "?" Kind.name ++ "] " ++
        ((head.component.path.stripBase? root).getD head.component.path).text ∧
      drawing false root route t = unlines (top :: others.map line ++ [""]) ∧
      (∀ id n, 0 < id → t.node? id = some n → '\n' ∉ (line id).toList ∧
        ∃ groups : List String, groups.length + 1 = t.depthOf id ∧
          (∀ depth, 0 < depth → depth < t.depthOf id → ∃ a, t.ancestorAt? id depth = some a ∧
            groups[depth - 1]? = some (if t.isLast a then "    " else "│   ")) ∧
          line id = String.join groups ++ (if t.isLast id then "└──" else "├──") ++ " " ++
            n.component.name ++ if n.cycle then " (cycle)" else
              " [" ++ n.component.kind.elim "?" Kind.name ++ "] " ++
                ((n.component.path.stripBase? root).getD n.component.path).text) ∧
      ('\n' ∉ route.toList →
        Command.splitLines (drawing false root route t).toList =
          (top :: others.map line ++ [""]).map String.toList ∧
        ∀ k id p, t.preorder[k]? = some id → t.parent? id = some p →
          t.preorder[lineAbove (drawing false root route t) k]? = some p) := by
  have linked := drawable.linked
  obtain ⟨head, found⟩ := Tree.exists_node? linked.nonempty
  obtain ⟨others, listed, -⟩ := linked.exists_preorder
  refine ⟨head, others, headLine false root route head.component, lineOf false root t, found, listed,
    linked.preorder_perm, ?_, drawing_eq drawable false root route found listed, ?_, fun free =>
    ⟨splitLines_drawing drawable oneLine free found listed, fun k id p drawn parent =>
      preorder_lineAbove drawable oneLine free drawn parent⟩⟩
  · rw [headLine, kindLabel_plain]
    rfl
  · intro id n pos node
    have lt := Tree.lt_size_of_node? node
    obtain ⟨p, -, parent⟩ := linked.below id pos lt
    refine ⟨not_mem_lineOf node (oneLine id n node), groups t id, length_groups linked parent, ?_,
      lineOf_plain node⟩
    intro depth some less
    -- on the way to a node there is one at each depth above its own
    obtain ⟨a, mem, rfl⟩ := linked.exists_depthOf lt (Nat.le_of_lt less)
    refine ⟨a, linked.ancestorAt?_depthOf mem lt, ?_⟩
    exact getElem?_groups linked lt mem (Nat.sub_add_cancel some).symm (by omega)

/-- Two imports of a page, each with an import of its own, of which the first closes a cycle. -/
def drawnSample : List Addition := Addition.sample ++ [⟨3, ⟨"./c", ⟨"/c.ts"⟩, none⟩, false⟩]

/-- The sample is drawn on five lines, in the order of the walk through its tree. -/
theorem drawing_shows_tree_sample :
    ∃ t, (Tree.ofRoot .sample).addAll? drawnSample = some t ∧ t.Drawable ∧
      (∀ id n, t.node? id = some n → n.component.OnOneLine) ∧ t.preorder = [0, 1, 2, 3, 4] ∧
      drawing false ⟨"/"⟩ "/" t = "/ [server] page.ts\n├── ./a [client] a.ts\n" ++
        "│   └── ./page (cycle)\n└── ./b [server] b.ts\n    └── ./c [?] c.ts\n\n" ∧
      t.preorder[lineAbove (drawing false ⟨"/"⟩ "/" t) 4]? = some 3 := by
  have within : Addition.Within 1 drawnSample := by
    simp only [drawnSample, Addition.sample, List.cons_append, List.nil_append,
      Addition.within_cons_iff]
    exact ⟨by decide, by decide, by decide, by decide, Addition.within_nil⟩
  obtain ⟨t, added, -⟩ := (Tree.linked_ofRoot .sample).exists_addAll? within
  have given : ∀ n ∈ t.nodes.toList, (n.cycle = true → n.children = []) ∧ n.component.OnOneLine := by
    cases added
    decide
  have listed (id : NodeId) (n : TreeNode) (found : t.node? id = some n) : n ∈ t.nodes.toList :=
    Array.mem_toList_iff.mpr (Array.mem_of_getElem? found)
  have drawable : t.Drawable :=
    Tree.drawable_of_addAll? within added fun id n found => (given n (listed id n found)).1
  have oneLine : ∀ id n, t.node? id = some n → n.component.OnOneLine := fun id n found =>
    (given n (listed id n found)).2
  have order : t.preorder = [0, 1, 2, 3, 4] ∧ t.parent? 4 = some 3 := by
    cases added
    exact ⟨rfl, rfl⟩
  obtain ⟨head, others, top, line, -, -, -, -, -, -, reads⟩ :=
    drawing_shows_tree drawable oneLine ⟨"/"⟩ "/"
  obtain ⟨-, hangs⟩ := reads (by decide)
  refine ⟨t, added, drawable, oneLine, order.1, ?_, hangs 4 4 3 (order.1 ▸ rfl) order.2⟩
  cases added
  rfl

end Report

end RouteTrees
