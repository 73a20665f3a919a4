import RouteTrees.Proofs.Panel.Data
import RouteTrees.Proofs.Panel.Markup
import RouteTrees.Proofs.Text.Occurrences

/-!
# Marks in the page

What is looked for in the page: where an option begins, which one is chosen, the error and the data of the
tree. None of these marks begins in a text from outside, nor in the data of a tree, nor in a part of the
page that is always the same but for the places that are meant. The parts that are always the same are
looked through character by character, a text from outside by what it cannot hold.
-/

namespace RouteTrees.Panel

open Text (behind occurrences Clear partsFrom clear_of_partsFrom)

/-- The characters of a string that is given with them. -/
theorem chars_of_spelled {s : String} {cs : List Char} (spelled : s = String.ofList cs) :
    s.toList = cs := by
  rw [spelled, String.toList_ofList]

/-! ## Marks -/

/-- What is looked for in the page. -/
inductive Mark where
  | option
  | selected
  | error
  | data
deriving DecidableEq

namespace Mark

/-- The characters of a mark. -/
def chars : Mark → List Char
  | option => ['<', 'o', 'p', 't', 'i', 'o', 'n', ' ']
  | selected => [' ', 's', 'e', 'l', 'e', 'c', 't', 'e', 'd', '>']
  | error => ['c', 'l', 'a', 's', 's', '=', '"', 'e', 'r', 'r', 'o', 'r', '"']
  | data => ['t', 'y', 'p', 'e', '=', '"', 'a', 'p', 'p', 'l', 'i', 'c', 'a', 't', 'i', 'o', 'n', '/',
      'j', 's', 'o', 'n', '"', '>']

/-- All marks. -/
def all : List Mark := [option, selected, error, data]

theorem mem_all (m : Mark) : m ∈ all := by cases m <;> decide

theorem chars_option : "<option ".toList = option.chars := chars_of_spelled rfl

theorem chars_selected : " selected>".toList = selected.chars := chars_of_spelled rfl

theorem chars_error : "class=\"error\"".toList = error.chars := chars_of_spelled rfl

theorem chars_data : "type=\"application/json\">".toList = data.chars := chars_of_spelled rfl

/-- A mark can only begin with what begins a tag. -/
theorem tail_free (m : Mark) : '<' ∉ m.chars.tail := by cases m <;> decide

/-- No mark is empty. -/
theorem chars_ne_nil (m : Mark) : m.chars ≠ [] := by cases m <;> nofun

/-- No mark begins within another one. -/
theorem clear_tail (m : Mark) : Clear m.chars m.chars.tail := by
  cases m <;> exact clear_of_partsFrom rfl

/-- Where a mark stands, it occurs there and not within itself. -/
theorem behind_chars (m : Mark) (rest : List Char) :
    behind m.chars (m.chars ++ rest) = rest :: behind m.chars rest :=
  Text.behind_self m.chars_ne_nil m.clear_tail rest

/-- Each mark has a character that may not stand in markup. -/
theorem exists_delimiter (m : Mark) : ∃ c ∈ m.chars, c ∈ delimiters := by
  cases m with
  | option => exact ⟨'<', by decide⟩
  | selected => exact ⟨'>', by decide⟩
  | error => exact ⟨'"', by decide⟩
  | data => exact ⟨'>', by decide⟩

end Mark

/-! ## Parts that are always the same

A string is compared with a mark by its characters, which are given with it. -/

section Fixed

variable {s : String} {cs : List Char}

/-- A text is clear of the marks if no mark begins in its characters. -/
theorem clear_literal (spelled : s = String.ofList cs)
    (parts : (Mark.all.all fun m => partsFrom m.chars cs) = true) (m : Mark) :
    Clear m.chars s.toList := by
  rw [chars_of_spelled spelled]
  exact clear_of_partsFrom (List.all_eq_true.mp parts m m.mem_all)

/-- A line is clear of the marks if no mark begins in it, its end included. -/
theorem clear_line (spelled : s = String.ofList cs)
    (parts : (Mark.all.all fun m => partsFrom m.chars (cs ++ ['\n'])) = true) (m : Mark) :
    Clear m.chars (s ++ "\n").toList := by
  rw [String.toList_append, chars_of_spelled spelled]
  exact clear_of_partsFrom (List.all_eq_true.mp parts m m.mem_all)

/-- Two texts that are clear of a mark are clear of it together. -/
theorem clear_append {mark : List Char} {t : String} (first : Clear mark s.toList)
    (second : Clear mark t.toList) : Clear mark (s ++ t).toList := by
  rw [String.toList_append]
  exact first.append second

/-- Lines that are each clear of a mark are clear of it together. -/
theorem clear_lineBlock {m : Mark} {lines : List String}
    (clear : ∀ line ∈ lines, Clear m.chars (line ++ "\n").toList) :
    Clear m.chars (lineBlock lines).toList := by
  refine clear_append (clear_literal rfl rfl m) ?_
  rw [String.toList_join, List.flatMap_map]
  induction lines with
  | nil => exact fun rest => rfl
  | cons line lines ih =>
    obtain ⟨first, later⟩ := List.forall_mem_cons.mp clear
    rw [List.flatMap_cons]
    exact first.append (ih later)

end Fixed

/-- No mark begins in the style. -/
theorem clear_styleLines (m : Mark) : ∀ line ∈ styleLines, Clear m.chars (line ++ "\n").toList := by
  unfold styleLines
  repeat refine List.forall_mem_cons.mpr ⟨clear_line rfl rfl m, ?_⟩
  nofun

/-- No mark begins in the script. -/
theorem clear_scriptLines (m : Mark) : ∀ line ∈ scriptLines, Clear m.chars (line ++ "\n").toList := by
  unfold scriptLines
  repeat refine List.forall_mem_cons.mpr ⟨clear_line rfl rfl m, ?_⟩
  nofun

/-- The page up to the options. -/
def beforeOptions : String := preamble ++ "<select id=\"route-select\" name=\"route\">\n"

/-- The page between the options and the current route. -/
def beforeCurrent : String :=
  "</select>\n" ++ legend ++ "</header>\n" ++ "<p>Current route: <code>"

/-- What stands behind the current route. -/
def behindCurrent : String := "</code></p>\n"

/-- The page between the error and the data. -/
def beforeData : String :=
  "<div id=\"tree\"></div>\n" ++ "<script id=\"tree-data\" type=\"application/json\">"

/-- The page behind the data. -/
def behindData : String :=
  "</script>\n<script>" ++ lineBlock scriptLines ++ "</script>\n</body>\n</html>\n"

/-- No mark begins before the options. -/
theorem clear_beforeOptions (m : Mark) : Clear m.chars beforeOptions.toList := by
  unfold beforeOptions preamble drawingLibrary
  refine clear_append (clear_append (clear_append ?_ (clear_lineBlock (clear_styleLines m)))
    (clear_literal rfl rfl m)) (clear_literal rfl rfl m)
  iterate 5 refine clear_append ?_ (clear_literal rfl rfl m)
  exact clear_literal rfl rfl m

/-- No mark begins between the options and the current route. -/
theorem clear_beforeCurrent (m : Mark) : Clear m.chars beforeCurrent.toList := by
  unfold beforeCurrent legend
  refine clear_append (clear_append (clear_append (clear_literal rfl rfl m) ?_)
    (clear_literal rfl rfl m)) (clear_literal rfl rfl m)
  iterate 2 refine clear_append ?_ (clear_literal rfl rfl m)
  exact clear_literal rfl rfl m

theorem clear_behindCurrent (m : Mark) : Clear m.chars behindCurrent.toList := clear_literal rfl rfl m

theorem head?_behindCurrent : behindCurrent.toList.head? = some '<' :=
  congrArg List.head? (chars_of_spelled rfl)

/-- No mark begins behind the data. -/
theorem clear_behindData (m : Mark) : Clear m.chars behindData.toList :=
  clear_append (clear_append (clear_literal rfl rfl m) (clear_lineBlock (clear_scriptLines m)))
    (clear_literal rfl rfl m)

theorem head?_behindData : behindData.toList.head? = some '<' := by
  have start : "</script>\n<script>".toList.head? = some '<' := congrArg List.head? (chars_of_spelled rfl)
  unfold behindData
  rw [String.toList_append, String.toList_append, List.head?_append, List.head?_append, start]
  rfl

/-! ## Parts from outside -/

section Outside

variable (m : Mark) {text : List Char}

/-- No occurrence begins in a part that a mark is not in and that such a tag follows. -/
theorem behind_append_tag (none : behind m.chars text = []) (tag : List Char)
    (begins : tag.head? = some '<') (clear : Clear m.chars tag) (rest : List Char) :
    behind m.chars (text ++ (tag ++ rest)) = behind m.chars rest := by
  obtain ⟨cs, rfl⟩ := List.head?_eq_some_iff.mp begins
  rw [List.cons_append, Text.behind_append_cons m.tail_free, none, List.map_nil, List.nil_append,
    ← List.cons_append, clear]

/-- No mark occurs in escaped text. -/
theorem behind_markup (s : String) : behind m.chars (markup s).toList = [] := by
  obtain ⟨c, mem, delimiter⟩ := m.exists_delimiter
  exact Text.behind_eq_nil_of_not_mem mem (not_mem_markup delimiter s)

/-- The data holds the quotation marks of an attribute, but it cannot spell one with its value. -/
theorem behind_treeData (tree : Option Nested) : behind m.chars (treeData tree).toList = [] := by
  have none : ∀ c ∈ scriptDelimiters, c ∈ m.chars → behind m.chars (treeData tree).toList = [] :=
    fun c special mem => Text.behind_eq_nil_of_not_mem mem (not_mem_treeData special tree)
  cases m with
  | option => exact none '<' (by decide) (by decide)
  | selected => exact none '>' (by decide) (by decide)
  | data => exact none '>' (by decide) (by decide)
  | error =>
    have spelled : ['=', '"', 'e'] <:+: Mark.error.chars := by decide
    exact Text.behind_eq_nil_of_infix spelled (quiet_treeData tree).1

end Outside

end RouteTrees.Panel
