import RouteTrees.Proofs.Panel.Markup
import RouteTrees.Proofs.Tree.Written

/-!
# The tree within the page

The script of the page finds the tree as JSON in which no character is left that could end a script or
begin a reference: within its texts such characters are written by their numbers, and elsewhere there are
none. A reader of JSON takes no notice of that. So the data reads back as the tree, as far as its reader
goes down, and different trees give different data.
-/

namespace RouteTrees.Panel

open Json.Read

/-! ## Characters -/

/-- The characters that are written by their numbers within a script. -/
def scriptDelimiters : List Char := ['<', '>', '&']

/-- The characters with which others are written within a text. -/
def escapeLetters : List Char :=
  ['\\', '0', '1', '2', '3', '4', '5', '6', '7', '8', '9', 'a', 'b', 'c', 'd', 'e', 'f', 'n', 'r', 't',
    'u']

/-- A character that would not end a script is written as it is. -/
theorem escapeScript_of_not_mem {c : Char} (plain : c ∉ scriptDelimiters) : escapeScript c = [c] := by
  simp only [scriptDelimiters, List.mem_cons, List.not_mem_nil, or_false, not_or] at plain
  obtain ⟨less, greater, ampersand⟩ := plain
  rw [escapeScript, if_neg less, if_neg greater, if_neg ampersand]

theorem flatMap_escapeScript {cs : List Char} (plain : ∀ c ∈ cs, c ∉ scriptDelimiters) :
    cs.flatMap escapeScript = cs := by
  induction cs with
  | nil => rfl
  | cons c cs ih =>
    obtain ⟨first, later⟩ := List.forall_mem_cons.mp plain
    rw [List.flatMap_cons, escapeScript_of_not_mem first, ih later, List.singleton_append]

/-- What is written for a character is itself, unless it would end a script, or belongs to an escape. -/
theorem mem_escapeScript {c x : Char} (mem : x ∈ escapeScript c) :
    x = c ∧ c ∉ scriptDelimiters ∨ x ∈ escapeLetters := by
  by_cases special : c ∈ scriptDelimiters
  · have letters : (scriptDelimiters.all fun c => (escapeScript c).all escapeLetters.contains) = true := by
      decide
    simp only [List.all_eq_true, List.contains_iff_mem] at letters
    exact .inr (letters c special x mem)
  · rw [escapeScript_of_not_mem special, List.mem_singleton] at mem
    exact .inl ⟨mem, special⟩

/-- What is written for a character of a text is itself or belongs to an escape. -/
theorem mem_escapeChar {c x : Char} (mem : x ∈ Json.escapeChar c) : x = c ∨ x ∈ escapeLetters := by
  have digits : ∀ d < 16, Nat.digitChar d ∈ escapeLetters := by decide
  have small : ∀ k, k % 16 < 16 := fun k => Nat.mod_lt k (by decide)
  unfold Json.escapeChar at mem
  -- the seven characters that have a letter of their own
  iterate 7
    split at mem
    · next same =>
      subst same
      simp only [List.mem_cons, List.not_mem_nil, or_false] at mem
      rcases mem with rfl | rfl <;> decide
  split at mem
  · simp only [Json.hex4, List.map_cons, List.map_nil, List.mem_cons, List.not_mem_nil,
      or_false] at mem
    rcases mem with rfl | rfl | rfl | rfl | rfl | rfl
    · exact .inr (by decide)
    · exact .inr (by decide)
    all_goals exact .inr (digits _ (small _))
  · exact .inl (List.mem_singleton.mp mem)

/-- No character of an escape is a quote or would end a script. -/
theorem not_mem_of_mem_escapeLetters {x : Char} (letter : x ∈ escapeLetters) :
    x ∉ '"' :: scriptDelimiters := not_mem_of_apart (by decide) letter

/-- Readers of JSON take no notice of what a script needs to have put in another way. -/
theorem respells_escapeScript : Respells escapeScript where
  outside c mem := escapeScript_of_not_mem (not_mem_of_apart (by decide) mem)
  within c cs := by
    by_cases special : c ∈ scriptDelimiters
    · simp only [scriptDelimiters, List.mem_cons, List.not_mem_nil, or_false] at special
      rcases special with rfl | rfl | rfl
      · exact textFrom_hex4 (n := 0x3c) (by decide) cs
      · exact textFrom_hex4 (n := 0x3e) (by decide) cs
      · exact textFrom_hex4 (n := 0x26) (by decide) cs
    · have plain : ∀ x ∈ Json.escapeChar c, x ∉ scriptDelimiters := by
        intro x mem
        rcases mem_escapeChar mem with rfl | letter
        · exact special
        · exact fun special => not_mem_of_mem_escapeLetters letter (List.mem_cons_of_mem _ special)
      rw [flatMap_escapeScript plain, textFrom_escapeChar]

/-! ## The data as a whole -/

/-- The JSON of a tree, or of none. -/
def jsonOf (tree : Option Nested) : Json := tree.elim .null Nested.toJson

/-- The data of a page is the compact tree, escaped. -/
theorem toList_treeData (tree : Option Nested) :
    (treeData tree).toList = (jsonOf tree).compact.flatMap escapeScript := by
  cases tree <;> exact String.toList_ofList

/-- No delimiter is in the data. -/
theorem not_mem_treeData {c : Char} (delimiter : c ∈ scriptDelimiters) (tree : Option Nested) :
    c ∉ (treeData tree).toList := by
  rw [toList_treeData]
  intro mem
  obtain ⟨d, -, written⟩ := List.mem_flatMap.mp mem
  rcases mem_escapeScript written with ⟨rfl, plain⟩ | letter
  · exact plain delimiter
  · exact not_mem_of_mem_escapeLetters letter (List.mem_cons_of_mem _ delimiter)

/-- How far down a reader has to go in the data of a tree: each node is an object in a list. -/
def levels (tree : Option Nested) : Nat := tree.elim 0 fun t => 2 * (t.height + 1)

/-- A tree is within the depth limit if its height is below 63. -/
theorem levels_le_depthLimit_iff (tree : Option Nested) :
    levels tree ≤ depthLimit ↔ ∀ t ∈ tree, t.height + 1 ≤ 63 := by
  cases tree with
  | none => simp [levels]
  | some t =>
    simp only [levels, Option.elim_some, depthLimit, Option.mem_some_iff, forall_eq']
    omega

/-- The data is read as the tree by a reader that goes down far enough. -/
theorem gives_treeData (tree : Option Nested) (depth : Nat) :
    Gives (optional (Nested.read depth)) (treeData tree).toList
      (if levels tree ≤ depth then .ok tree else .error .malformed) := by
  rw [toList_treeData]
  cases tree with
  | none =>
    rw [levels, Option.elim_none, if_pos (Nat.zero_le depth)]
    exact reads_optional_null _ [] _ isGap_nil (spells_compact respells_escapeScript .null)
  | some t =>
    have spelled := spells_compact respells_escapeScript t.numberless_toJson
    have whole := (t.reads_read depth).optional t.toJson_ne_null [] _ isGap_nil spelled
    rw [levels, Option.elim_some]
    split
    · next fits => rwa [if_pos fits] at whole
    · next high => rwa [if_neg high] at whole

/-- The data reads back as the tree, up to the depth limit. -/
theorem ofText?_treeData (tree : Option Nested) :
    Nested.ofText? (treeData tree) =
      if ∀ t ∈ tree, t.height + 1 ≤ 63 then .ok tree else .error .malformed := by
  have read := (gives_treeData tree depthLimit).parse_eq
  rw [String.ofList_toList] at read
  rw [Nested.ofText?, read]
  simp only [levels_le_depthLimit_iff]

/-- Different trees give different data, however high they are. -/
theorem treeData_inj {s t : Option Nested} : treeData s = treeData t ↔ s = t := by
  refine ⟨fun same => ?_, fun same => same ▸ rfl⟩
  have read : ∀ tree, levels tree ≤ max (levels s) (levels t) →
      optional (Nested.read (max (levels s) (levels t))) (treeData tree).toList = .ok (tree, []) := by
    intro tree le
    have given := gives_treeData tree (max (levels s) (levels t)) []
    rwa [List.append_nil, if_pos le] at given
  have first := read s (Nat.le_max_left _ _)
  have second := read t (Nat.le_max_right _ _)
  rw [same, second] at first
  cases first
  rfl

/-- Only the data of no tree says that there is none. -/
theorem treeData_eq_null_iff (tree : Option Nested) : treeData tree = "null" ↔ tree = none := by
  have null : treeData none = "null" := rfl
  rw [← null, treeData_inj]

/-! ## What the data does not spell

A quotation mark within a text of JSON stands behind a backslash, and one that ends a text is followed by
a comma, a colon or a bracket. So of an attribute, with its value between quotation marks, no more can be
spelled than up to the first of these. -/

/-- Whether no quotation mark stands behind an equals sign, also if such text follows. -/
def Unquoted (cs : List Char) : Prop := ¬['=', '"'] <:+: cs ∧ cs.head? ≠ some '"'

/-- Parts in which all quotes are escaped can be put together. -/
theorem Unquoted.append {first second : List Char} (one : Unquoted first) (other : Unquoted second) :
    Unquoted (first ++ second) := by
  refine ⟨fun within => ?_, fun begins => ?_⟩
  · rcases List.infix_append_iff.mp within with inFirst | inSecond | ⟨l, r, parts, ends, begins⟩
    · exact one.1 inFirst
    · exact other.1 inSecond
    · rcases l with _ | ⟨a, _ | ⟨b, l⟩⟩
      · exact other.1 (parts ▸ begins.isInfix)
      · cases parts
        obtain ⟨more, rfl⟩ := begins
        exact other.2 rfl
      · simp only [List.cons_append, List.cons.injEq, List.nil_eq, List.append_eq_nil_iff] at parts
        obtain ⟨rfl, rfl, rfl, rfl⟩ := parts
        exact one.1 ends.isInfix
  · cases first with
    | nil => exact other.2 begins
    | cons c cs => exact one.2 begins

theorem unquoted_of_not_mem {cs : List Char} (free : '"' ∉ cs) : Unquoted cs := by
  refine ⟨fun within => free (within.subset (by decide)), fun begins => ?_⟩
  exact free (List.mem_of_mem_head? begins)

/-- What is written of a character within a text holds a quotation mark only behind a backslash. -/
theorem unquoted_escapeChar (c : Char) : Unquoted ((Json.escapeChar c).flatMap escapeScript) := by
  by_cases quote : c = '"'
  · subst quote
    unfold Unquoted
    decide
  · refine unquoted_of_not_mem fun mem => ?_
    have letters : '"' ∉ escapeLetters := by decide
    obtain ⟨d, written, put⟩ := List.mem_flatMap.mp mem
    rcases mem_escapeScript put with ⟨rfl, -⟩ | letter
    · rcases mem_escapeChar written with same | letter
      · exact quote same.symm
      · exact letters letter
    · exact letters letter

/-- Whether no text ends behind an equals sign and is followed by the letter `e`, also where such JSON is
put together. -/
def Quiet (cs : List Char) : Prop :=
  ¬['=', '"', 'e'] <:+: cs ∧ cs.head? ≠ some 'e' ∧ cs.getLast? ≠ some '='

/-- Quiet parts can be put together. -/
theorem Quiet.append {first second : List Char} (one : Quiet first) (other : Quiet second) :
    Quiet (first ++ second) := by
  obtain ⟨absent, begins, ends⟩ := one
  obtain ⟨absent', begins', ends'⟩ := other
  refine ⟨fun within => ?_, ?_, ?_⟩
  · rcases List.infix_append_iff.mp within with inFirst | inSecond | ⟨l, r, parts, last, next⟩
    · exact absent inFirst
    · exact absent' inSecond
    · rcases l with _ | ⟨a, _ | ⟨b, _ | ⟨c, l⟩⟩⟩
      · exact absent' (parts ▸ next.isInfix)
      · obtain ⟨more, rfl⟩ := last
        cases parts
        exact ends List.getLast?_concat
      · cases parts
        obtain ⟨more, rfl⟩ := next
        exact begins' rfl
      · simp only [List.cons_append, List.cons.injEq, List.nil_eq, List.append_eq_nil_iff] at parts
        obtain ⟨rfl, rfl, rfl, rfl, rfl⟩ := parts
        exact absent last.isInfix
  · cases first with
    | nil => exact begins'
    | cons c cs => exact begins
  · rw [List.getLast?_append]
    cases last : second.getLast? with
    | none => rwa [Option.none_or]
    | some c => rwa [Option.some_or, ← last]

/-- A quotation is quiet, whatever it says. -/
theorem quiet_quote (s : String) : Quiet ((Json.quote s).flatMap escapeScript) := by
  have body : Unquoted ((s.toList.flatMap Json.escapeChar).flatMap escapeScript) := by
    induction s.toList with
    | nil => exact unquoted_of_not_mem List.not_mem_nil
    | cons c cs ih =>
      rw [List.flatMap_cons, List.flatMap_append]
      exact (unquoted_escapeChar c).append ih
  rw [respells_escapeScript.quote_eq]
  refine ⟨fun within => ?_, nofun, ?_⟩
  · rcases List.infix_cons_iff.mp within with here | later
    · exact absurd (List.cons_prefix_cons.mp here).1 (by decide)
    · rcases List.infix_concat_iff.mp later with last | inBody
      · obtain ⟨more, whole⟩ := last
        have same := congrArg List.getLast? whole
        simp at same
      · exact body.1 ((List.infix_append' [] ['=', '"'] ['e']).trans inBody)
  · rw [← List.cons_append, List.getLast?_concat]
    decide

/-- What stands between texts is quiet, if it is neither of the two that are looked for. -/
theorem Quiet.cons {c : Char} (mem : c ∈ frame) (other : c ≠ 'e') {cs : List Char}
    (quiet : Quiet (cs.flatMap escapeScript)) : Quiet ((c :: cs).flatMap escapeScript) := by
  have single : Quiet [c] := by
    refine ⟨fun within => absurd within.length_le (by simp), fun same => other (Option.some.inj same),
      fun same => ?_⟩
    have none : '=' ∉ frame := by decide
    exact none (Option.some.inj same ▸ mem)
  rw [List.flatMap_cons, respells_escapeScript.outside c mem]
  exact single.append quiet

theorem quiet_nil : Quiet ([].flatMap escapeScript) := ⟨by decide, nofun, nofun⟩

/-- Brackets around something quiet leave it quiet. -/
theorem Quiet.enclosed {first last : Char} (mem : first ∈ frame) (mem' : last ∈ frame) (other : first ≠ 'e')
    (other' : last ≠ 'e') {cs : List Char} (quiet : Quiet (cs.flatMap escapeScript)) :
    Quiet ((first :: cs ++ [last]).flatMap escapeScript) := by
  rw [List.flatMap_append]
  exact (quiet.cons mem other).append (quiet_nil.cons mem' other')

/-- Fields are quiet if their values are. -/
theorem quiet_fields {fs : List (String × Json)}
    (all : ∀ f ∈ fs, Quiet (f.2.compact.flatMap escapeScript)) :
    Quiet ((Json.compactFields fs).flatMap escapeScript) := by
  induction fs with
  | nil => exact quiet_nil
  | cons f fs ih =>
    obtain ⟨k, v⟩ := f
    obtain ⟨first, later⟩ := List.forall_mem_cons.mp all
    have field : Quiet ((':' :: v.compact).flatMap escapeScript) := first.cons (by decide) (by decide)
    have more : Quiet ((moreFields fs).flatMap escapeScript) := by
      cases fs with
      | nil => exact quiet_nil
      | cons f fs => exact (ih later).cons (by decide) (by decide)
    rw [compactFields_cons, List.flatMap_append, List.flatMap_append]
    exact ((quiet_quote k).append field).append more

/-- Items are quiet if each is. -/
theorem quiet_items {vs : List Json} (all : ∀ v ∈ vs, Quiet (v.compact.flatMap escapeScript)) :
    Quiet ((Json.compactItems vs).flatMap escapeScript) := by
  induction vs with
  | nil => exact quiet_nil
  | cons v vs ih =>
    obtain ⟨first, later⟩ := List.forall_mem_cons.mp all
    have more : Quiet ((moreItems vs).flatMap escapeScript) := by
      cases vs with
      | nil => exact quiet_nil
      | cons w vs => exact (ih later).cons (by decide) (by decide)
    rw [compactItems_cons, List.flatMap_append]
    exact first.append more

theorem quiet_object {fs : List (String × Json)}
    (all : ∀ f ∈ fs, Quiet (f.2.compact.flatMap escapeScript)) :
    Quiet ((Json.object fs).compact.flatMap escapeScript) := by
  rw [Json.compact]
  exact (quiet_fields all).enclosed (by decide) (by decide) (by decide) (by decide)

theorem quiet_list {vs : List Json} (all : ∀ v ∈ vs, Quiet (v.compact.flatMap escapeScript)) :
    Quiet ((Json.list vs).compact.flatMap escapeScript) := by
  rw [Json.compact]
  exact (quiet_items all).enclosed (by decide) (by decide) (by decide) (by decide)

mutual

/-- A tree is quiet, by induction on it. -/
theorem quiet_toJson : ∀ n : Nested, Quiet (n.toJson.compact.flatMap escapeScript)
  | .node name kind path cycle children => by
    have items := quiet_list (quiet_toJsonAll children)
    rw [Nested.toJson]
    refine quiet_object fun f mem => ?_
    simp only [List.mem_append, List.mem_singleton, List.mem_map] at mem
    rcases mem with (((rfl | ⟨k, -, rfl⟩) | ⟨p, -, rfl⟩) | marked) | rfl
    · exact quiet_quote name
    · exact quiet_quote k.name
    · exact quiet_quote p
    · cases cycle with
      | false => cases marked
      | true =>
        cases List.mem_singleton.mp marked
        exact ⟨by decide, by decide, by decide⟩
    · exact items

theorem quiet_toJsonAll :
    ∀ ns : List Nested, ∀ v ∈ Nested.toJsonAll ns, Quiet (v.compact.flatMap escapeScript)
  | [] => nofun
  | n :: ns => by
    rw [Nested.toJsonAll, List.forall_mem_cons]
    exact ⟨quiet_toJson n, quiet_toJsonAll ns⟩

end

/-- No text of the data can end in the way an attribute begins whose value begins with this letter. -/
theorem quiet_treeData (tree : Option Nested) : Quiet (treeData tree).toList := by
  rw [toList_treeData]
  cases tree with
  | none => exact ⟨by decide, by decide, by decide⟩
  | some n => exact quiet_toJson n

end RouteTrees.Panel
