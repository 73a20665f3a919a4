import RouteTrees.Proofs.Panel.Marks

/-!
# What can be read from the page

The page is looked at as text, without regard to what its parts are meant to be. An option begins wherever
the text says so, and so do the mark of the chosen one, the error and the data of the tree. Whatever the
routes, the error and the names in the tree are, that is once for each route, for each time that the
current one is among them, for the error if there is one, and for the data; and what is read there is what
the page was made from.
-/

namespace RouteTrees.Panel

open Text

/-! ## Reading the page -/

/-- An option of the selector, as its tag says it. -/
structure Choice where
  value : String
  selected : Bool
deriving DecidableEq, Repr

/-- Reads an option from what stands behind `<option `, up to the end of its tag. -/
def Choice.read? (text : List Char) : Option Choice :=
  let name := "value=\"".toList
  if name <+: text then
    let rest := text.drop name.length
    let value := rest.takeWhile (· ≠ '"')
    let more := (rest.drop (value.length + 1)).takeWhile (· ≠ '>')
    some ⟨plainText value, more = " selected".toList⟩
  else none

/-- The options of a document, in order. -/
def choices (document : String) : List (Option Choice) :=
  (behind "<option ".toList document.toList).map Choice.read?

/-- The values of the options that are marked as chosen. -/
def chosen (document : String) : List String :=
  (choices document).filterMap fun choice =>
    choice.bind fun c => if c.selected then some c.value else none

/-- What stands between the first mark of the data in a document and the next end of a script. -/
def embedded? (document : String) : Option String := do
  let text ← (behind "type=\"application/json\">".toList document.toList).head?
  let data ← upTo? "</script>".toList text
  return String.ofList data

/-! ## Options -/

/-- What stands before the value of an option, behind the beginning of its tag. -/
def valueName : List Char := ['v', 'a', 'l', 'u', 'e', '=', '"']

theorem chars_valueName : "value=\"".toList = valueName := chars_of_spelled rfl

def optionEnd : List Char := ['<', '/', 'o', 'p', 't', 'i', 'o', 'n', '>', '\n']

section Options

variable (current route : String) (rest : List Char)

/-- The end of an option's tag, behind its value. -/
def tagEnd : List Char := if route = current then Mark.selected.chars else ['>']

/-- An option, from behind the beginning of its tag to the tag that ends it. -/
def inOption : List Char :=
  valueName ++ ((markup route).toList ++ '"' :: (tagEnd current route ++ (markup route).toList))

/-- An option is its mark, what the mark does not cover, and its end. -/
theorem toList_option :
    (option current route).toList = Mark.option.chars ++ (inOption current route ++ optionEnd) := by
  have start : "<option value=\"".toList = Mark.option.chars ++ valueName :=
    (chars_of_spelled rfl).trans rfl
  have quote : "\"".toList = ['"'] := chars_of_spelled rfl
  have close : "</option>\n".toList = optionEnd := chars_of_spelled rfl
  have ending : (if route = current then " selected" else "").toList ++ ">".toList =
      tagEnd current route := by
    unfold tagEnd
    split
    · have chosen : " selected".toList = Mark.selected.chars.dropLast :=
        (chars_of_spelled rfl).trans rfl
      have greater : ">".toList = ['>'] := chars_of_spelled rfl
      rw [chosen, greater]
      rfl
    · exact (chars_of_spelled rfl).trans rfl
  unfold option inOption
  rw [String.toList_append, String.toList_append, String.toList_append, String.toList_append,
    String.toList_append, String.toList_append, start, quote, close, ← ending]
  simp only [List.append_assoc, List.cons_append, List.nil_append]

/-- An option is read with its route, and as chosen if that is the current one. -/
theorem read?_inOption :
    Choice.read? (inOption current route ++ rest) = some ⟨route, route = current⟩ := by
  have value : ((markup route).toList ++ '"' :: (tagEnd current route ++ (markup route).toList ++
      rest)).takeWhile (· ≠ '"') = (markup route).toList := by
    rw [List.takeWhile_append_of_pos]
    · simp
    · intro c mem
      exact decide_eq_true fun same => not_mem_markup (by decide) route (same ▸ mem)
  have more : ((tagEnd current route ++ (markup route).toList ++ rest).takeWhile (· ≠ '>') =
      " selected".toList) ↔ route = current := by
    have chosen : " selected".toList = [' ', 's', 'e', 'l', 'e', 'c', 't', 'e', 'd'] :=
      chars_of_spelled rfl
    rw [chosen]
    unfold tagEnd
    split
    · next same => simp [Mark.chars, same]
    · next other => simp [other]
  have whole : inOption current route ++ rest = valueName ++ ((markup route).toList ++
      '"' :: (tagEnd current route ++ (markup route).toList ++ rest)) := by
    simp only [inOption, List.append_assoc, List.cons_append]
  have after : ((markup route).toList ++ '"' :: (tagEnd current route ++ (markup route).toList ++
      rest)).drop ((markup route).toList.length + 1) =
      tagEnd current route ++ (markup route).toList ++ rest := by
    rw [List.drop_append, List.drop_eq_nil_of_le (Nat.le_succ _), Nat.add_sub_cancel_left]
    rfl
  have named : valueName <+: inOption current route ++ rest := whole ▸ List.prefix_append _ _
  unfold Choice.read?
  simp only [chars_valueName, if_pos named]
  rw [whole, List.drop_left, value, after, plainText_markup]
  simp only [more]

example : Choice.read? "value=\"/a&amp;b/\" selected>/a&amp;b/</option>".toList = some ⟨"/a&b/", true⟩ :=
  rfl

/-- Behind the beginning of an option's tag there is no other one. -/
theorem behind_option_option :
    behind Mark.option.chars ((option current route).toList ++ rest) =
      (inOption current route ++ (optionEnd ++ rest)) :: behind Mark.option.chars rest := by
  have within : '<' ∉ inOption current route := by
    have free : '<' ∉ (markup route).toList := not_mem_markup (by decide) route
    unfold inOption tagEnd
    split <;> simp [valueName, Mark.chars, free]
  have clear : Clear Mark.option.chars (inOption current route) := clear_of_not_mem within
  have ends : Clear Mark.option.chars optionEnd := clear_of_partsFrom rfl
  rw [toList_option, List.append_assoc, List.append_assoc, Mark.behind_chars, clear, ends]

/-- Other marks are not found in the value of an option, nor across its end. -/
theorem behind_value {m : Mark} (ne : m ≠ .option) (more : List Char) :
    behind m.chars ((markup route).toList ++ '"' :: (tagEnd current route ++ more)) =
      behind m.chars (tagEnd current route ++ more) := by
  have quote : '"' ∉ (markup route).toList := not_mem_markup (by decide) route
  have differ : ∀ c cs, c ≠ ' ' → c ≠ '>' → ¬c :: cs <+: tagEnd current route ++ more := by
    intro c cs notBlank notClose here
    unfold tagEnd at here
    split at here
    · exact notBlank (List.cons_prefix_cons.mp here).1
    · exact notClose (List.cons_prefix_cons.mp here).1
  cases m with
  | option => exact absurd rfl ne
  | selected =>
    rw [behind_append_cons (by decide), behind_markup .selected, List.map_nil, List.nil_append,
      behind_cons_of_not_mem (Mark.chars_ne_nil _) (by decide)]
  | error =>
    have parts : Mark.error.chars =
      ['c', 'l', 'a', 's', 's', '='] ++ '"' :: ['e', 'r', 'r', 'o', 'r', '"'] := rfl
    rw [parts]
    exact behind_of_differ (by decide) quote (differ _ _ (by decide) (by decide))
  | data =>
    have parts : Mark.data.chars = ['t', 'y', 'p', 'e', '='] ++ '"' :: Mark.data.chars.drop 6 := rfl
    rw [parts]
    exact behind_of_differ (by decide) quote (differ _ _ (by decide) (by decide))

/-- Other marks can only be found at the end of an option's tag. -/
theorem behind_option_of_ne {m : Mark} (ne : m ≠ .option) :
    behind m.chars ((option current route).toList ++ rest) =
      behind m.chars (tagEnd current route ++ ((markup route).toList ++ (optionEnd ++ rest))) := by
  have start : Clear m.chars (Mark.option.chars ++ valueName) := by
    cases m with
    | option => exact absurd rfl ne
    | selected | error | data => exact clear_of_partsFrom rfl
  have whole : (option current route).toList ++ rest = Mark.option.chars ++ valueName ++
      ((markup route).toList ++
        '"' :: (tagEnd current route ++ ((markup route).toList ++ (optionEnd ++ rest)))) := by
    rw [toList_option, inOption]
    simp only [List.append_assoc, List.cons_append]
  rw [whole, start, behind_value current route ne]

/-- The label of an option has no marks in it. -/
theorem behind_label (m : Mark) :
    behind m.chars ((markup route).toList ++ (optionEnd ++ rest)) = behind m.chars rest := by
  have ends : Clear m.chars optionEnd := by cases m <;> exact clear_of_partsFrom rfl
  exact behind_append_tag m (behind_markup m route) optionEnd rfl ends rest

/-- An option is marked as chosen if it is the current route. -/
theorem length_behind_option_selected :
    (behind Mark.selected.chars ((option current route).toList ++ rest)).length =
      (if route = current then 1 else 0) + (behind Mark.selected.chars rest).length := by
  rw [behind_option_of_ne current route rest (by decide)]
  unfold tagEnd
  split
  · rw [Mark.behind_chars, List.length_cons, behind_label, Nat.add_comm]
  · have close : Clear Mark.selected.chars ['>'] := clear_of_partsFrom rfl
    rw [close, behind_label, Nat.zero_add]

/-- No mark other than its own two is in an option. -/
theorem behind_option_other {m : Mark} (ne : m ≠ .option) (ne' : m ≠ .selected) :
    behind m.chars ((option current route).toList ++ rest) = behind m.chars rest := by
  have clear : Clear m.chars (tagEnd current route) := by
    unfold tagEnd
    cases m with
    | option => exact absurd rfl ne
    | selected => exact absurd rfl ne'
    | error | data => split <;> exact clear_of_partsFrom rfl
  rw [behind_option_of_ne current route rest ne, clear, behind_label]

end Options

section All

variable (current : String) (routes : List String) (rest : List Char)

/-- The options of the page, as they stand there. -/
def optionsOf : List Char := routes.flatMap fun route => (option current route).toList

theorem optionsOf_cons (route : String) :
    optionsOf current (route :: routes) ++ rest =
      (option current route).toList ++ (optionsOf current routes ++ rest) := by
  rw [optionsOf, List.flatMap_cons, List.append_assoc]
  rfl

/-- The options of a document read back as routes, each with whether it is current. -/
theorem choices_optionsOf :
    (behind Mark.option.chars (optionsOf current routes ++ rest)).map Choice.read? =
      routes.map (fun route => some ⟨route, route = current⟩) ++
        (behind Mark.option.chars rest).map Choice.read? := by
  induction routes with
  | nil => rfl
  | cons route routes ih =>
    rw [optionsOf_cons, behind_option_option, List.map_cons, read?_inOption, ih, List.map_cons,
      List.cons_append]

/-- The current route is selected as often as it is listed. -/
theorem length_behind_optionsOf_selected :
    (behind Mark.selected.chars (optionsOf current routes ++ rest)).length =
      routes.count current + (behind Mark.selected.chars rest).length := by
  induction routes with
  | nil => simp [optionsOf]
  | cons route routes ih =>
    rw [optionsOf_cons, length_behind_option_selected, ih, List.count_cons]
    simp only [beq_iff_eq]
    omega

/-- No mark other than the two of options is in them. -/
theorem behind_optionsOf_other {m : Mark} (ne : m ≠ .option) (ne' : m ≠ .selected) :
    behind m.chars (optionsOf current routes ++ rest) = behind m.chars rest := by
  induction routes with
  | nil => rfl
  | cons route routes ih => rw [optionsOf_cons, behind_option_other current route _ ne ne', ih]

end All

/-! ## The error -/

section Banner

variable (error : Option String) (rest : List Char)

theorem toList_banner_some (e : String) : (banner (some e)).toList ++ rest =
    ['<', 'p', ' '] ++ (Mark.error.chars ++ (['>'] ++
      ((markup e).toList ++ (['<', '/', 'p', '>', '\n'] ++ rest)))) := by
  have start : "<p class=\"error\">".toList = ['<', 'p', ' '] ++ (Mark.error.chars ++ ['>']) :=
    (chars_of_spelled rfl).trans rfl
  have close : "</p>\n".toList = ['<', '/', 'p', '>', '\n'] := chars_of_spelled rfl
  unfold banner
  rw [String.toList_append, String.toList_append, start, close]
  simp only [List.append_assoc]

/-- A banner has no mark in it but that of errors. -/
theorem behind_banner {m : Mark} (ne : m ≠ .error) :
    behind m.chars ((banner error).toList ++ rest) = behind m.chars rest := by
  cases error with
  | none => rfl
  | some e =>
    have start : Clear m.chars (['<', 'p', ' '] ++ (Mark.error.chars ++ ['>'])) := by
      cases m with
      | error => exact absurd rfl ne
      | option | selected | data => exact clear_of_partsFrom rfl
    have close : Clear m.chars ['<', '/', 'p', '>', '\n'] := by cases m <;> exact clear_of_partsFrom rfl
    have text := behind_append_tag m (behind_markup m e) ['<', '/', 'p', '>', '\n'] rfl close rest
    rw [toList_banner_some, ← text, ← start ((markup e).toList ++ _)]
    simp only [List.append_assoc]

/-- There is one mark of errors if there is an error. -/
theorem length_behind_banner_error :
    (behind Mark.error.chars ((banner error).toList ++ rest)).length =
      (if error.isSome then 1 else 0) + (behind Mark.error.chars rest).length := by
  cases error with
  | none => exact (Nat.zero_add _).symm
  | some e =>
    have start : Clear Mark.error.chars ['<', 'p', ' '] := clear_of_partsFrom rfl
    have greater : Clear Mark.error.chars ['>'] := clear_of_partsFrom rfl
    have close : Clear Mark.error.chars ['<', '/', 'p', '>', '\n'] := clear_of_partsFrom rfl
    have text := behind_append_tag .error (behind_markup .error e) _ rfl close rest
    rw [toList_banner_some, start, Mark.behind_chars, greater, text, List.length_cons, Nat.add_comm]
    rfl

end Banner

/-! ## The data -/

/-- The beginning of the script that holds the data, up to the mark of it. -/
def dataTag : List Char :=
  ['<', 's', 'c', 'r', 'i', 'p', 't', ' ', 'i', 'd', '=', '"', 't', 'r', 'e', 'e', '-', 'd', 'a', 't',
    'a', '"', ' ']

theorem toList_beforeData :
    beforeData.toList = "<div id=\"tree\"></div>\n".toList ++ (dataTag ++ Mark.data.chars) := by
  have tag : "<script id=\"tree-data\" type=\"application/json\">".toList =
      dataTag ++ Mark.data.chars := (chars_of_spelled rfl).trans rfl
  exact String.toList_append.trans (congrArg _ tag)

/-- No mark other than its own is in the tag of the data. -/
theorem behind_beforeData {m : Mark} (ne : m ≠ .data) (rest : List Char) :
    behind m.chars (beforeData.toList ++ rest) = behind m.chars rest := by
  have tag : Clear m.chars (dataTag ++ Mark.data.chars) := by
    cases m with
    | data => exact absurd rfl ne
    | option | selected | error => exact clear_of_partsFrom rfl
  have before : Clear m.chars "<div id=\"tree\"></div>\n".toList := clear_literal rfl rfl m
  rw [toList_beforeData]
  exact before.append tag rest

/-- The mark of the data occurs once in its tag. -/
theorem behind_beforeData_data (rest : List Char) :
    behind Mark.data.chars (beforeData.toList ++ rest) = rest :: behind Mark.data.chars rest := by
  have tag : Clear Mark.data.chars dataTag := clear_of_partsFrom rfl
  have before : Clear Mark.data.chars "<div id=\"tree\"></div>\n".toList := clear_literal rfl rfl _
  rw [toList_beforeData, List.append_assoc, List.append_assoc, before, tag, Mark.behind_chars]

/-- Behind the data, and in it, there is no mark. -/
theorem behind_data_end (m : Mark) (tree : Option Nested) :
    behind m.chars ((treeData tree).toList ++ behindData.toList) = [] := by
  have ends := behind_append_tag m (behind_treeData m tree) _ head?_behindData (clear_behindData m) []
  rwa [List.append_nil] at ends

/-- The tag that ends a script. -/
def scriptEnd : List Char := ['<', '/', 's', 'c', 'r', 'i', 'p', 't', '>']

theorem exists_behindData : ∃ rest, behindData.toList = scriptEnd ++ rest := by
  have start : "</script>\n<script>".toList = scriptEnd ++ ['\n', '<', 's', 'c', 'r', 'i', 'p', 't', '>'] :=
    (chars_of_spelled rfl).trans rfl
  unfold behindData
  rw [String.toList_append, String.toList_append, start, List.append_assoc, List.append_assoc]
  exact ⟨_, rfl⟩

/-! ## The whole page -/

/-- The page behind the current route. -/
def afterCurrent (tree : Option Nested) (error : Option String) : List Char :=
  behindCurrent.toList ++ ((banner error).toList ++
    (beforeData.toList ++ ((treeData tree).toList ++ behindData.toList)))

variable (current : String) (routes : List String) (tree : Option Nested) (error : Option String)

/-- A page, part by part. -/
theorem toList_page : (page current routes tree error).toList =
    beforeOptions.toList ++ (optionsOf current routes ++
      (beforeCurrent.toList ++ ((markup current).toList ++ afterCurrent tree error))) := by
  have parts : page current routes tree error =
      beforeOptions ++ (String.join (routes.map (option current)) ++ (beforeCurrent ++
        (markup current ++ (behindCurrent ++ (banner error ++ (beforeData ++
          (treeData tree ++ behindData))))))) := by
    unfold page beforeOptions beforeCurrent behindCurrent beforeData behindData
    simp only [String.append_assoc, -String.reduceAppend]
  rw [parts]
  unfold afterCurrent optionsOf
  rw [String.toList_append, String.toList_append, String.toList_append, String.toList_append,
    String.toList_append, String.toList_append, String.toList_append, String.toList_append,
    String.toList_join, List.flatMap_map]

/-- Between the options and the error, no mark is found. -/
theorem behind_beforeCurrent (m : Mark) :
    behind m.chars (beforeCurrent.toList ++ ((markup current).toList ++ afterCurrent tree error)) =
      behind m.chars ((banner error).toList ++ (beforeData.toList ++
        ((treeData tree).toList ++ behindData.toList))) := by
  unfold afterCurrent
  rw [clear_beforeCurrent m]
  exact behind_append_tag m (behind_markup m current) _ head?_behindCurrent (clear_behindCurrent m) _

/-- Before the options, no mark is found. -/
theorem behind_page (m : Mark) : behind m.chars (page current routes tree error).toList =
    behind m.chars (optionsOf current routes ++
      (beforeCurrent.toList ++ ((markup current).toList ++ afterCurrent tree error))) := by
  rw [toList_page, clear_beforeOptions m]

/-- Behind the options there are no marks of options. -/
theorem behind_error_data {m : Mark} (ne : m ≠ .error) (ne' : m ≠ .data) :
    behind m.chars (beforeCurrent.toList ++ ((markup current).toList ++ afterCurrent tree error)) =
      [] := by
  rw [behind_beforeCurrent, behind_banner error _ ne, behind_beforeData ne', behind_data_end]

/-- The options of the page are those of the routes, and the current one is chosen. -/
theorem choices_page : choices (page current routes tree error) =
    routes.map fun route => some ⟨route, route = current⟩ := by
  unfold choices
  rw [Mark.chars_option, behind_page, choices_optionsOf,
    behind_error_data _ _ _ (by decide) (by decide), List.map_nil, List.append_nil]

/-- The chosen options of a page are those of the current route. -/
theorem chosen_page :
    chosen (page current routes tree error) = routes.filter fun route => route = current := by
  unfold chosen
  rw [choices_page, List.filterMap_map]
  induction routes with
  | nil => rfl
  | cons route routes ih =>
    rw [List.filterMap_cons, List.filter_cons, ih]
    by_cases same : route = current <;> simp [same]

/-- A page has one option for each route. -/
theorem occurrences_option_page :
    occurrences "<option " (page current routes tree error) = routes.length := by
  have read := congrArg List.length (choices_page current routes tree error)
  rwa [choices, List.length_map, List.length_map] at read

theorem occurrences_selected_page :
    occurrences " selected>" (page current routes tree error) = routes.count current := by
  unfold occurrences
  rw [Mark.chars_selected, behind_page, length_behind_optionsOf_selected,
    behind_error_data _ _ _ (by decide) (by decide)]
  rfl

/-- A page has one error, if any. -/
theorem occurrences_error_page :
    occurrences "class=\"error\"" (page current routes tree error) =
      if error.isSome then 1 else 0 := by
  unfold occurrences
  rw [Mark.chars_error, behind_page, behind_optionsOf_other _ _ _ (by decide) (by decide),
    behind_beforeCurrent, length_behind_banner_error, behind_beforeData (by decide), behind_data_end]
  rfl

/-- The data of the page is that of the tree. -/
theorem embedded?_page : embedded? (page current routes tree error) = some (treeData tree) := by
  have close : "</script>".toList = scriptEnd := chars_of_spelled rfl
  have absent : '<' ∉ (treeData tree).toList := not_mem_treeData (by decide) tree
  obtain ⟨rest, ends⟩ := exists_behindData
  have data : upTo? scriptEnd ((treeData tree).toList ++ behindData.toList) =
      some (treeData tree).toList := by
    rw [ends]
    exact upTo?_append absent rest
  unfold embedded?
  rw [Mark.chars_data, behind_page, behind_optionsOf_other _ _ _ (by decide) (by decide),
    behind_beforeCurrent, behind_banner _ _ (by decide), behind_beforeData_data, List.head?_cons,
    Option.bind_eq_bind, Option.bind_some, close, data, Option.bind_some, String.ofList_toList]
  rfl

/-! ## What a page was made from -/

/-- Banners are known by what they say. -/
theorem toList_banner_inj {first second : Option String} :
    (banner first).toList = (banner second).toList ↔ first = second := by
  refine ⟨fun same => ?_, fun same => same ▸ rfl⟩
  have whole : ∀ e, (banner (some e)).toList = ['<', 'p', ' '] ++ (Mark.error.chars ++ (['>'] ++
      ((markup e).toList ++ ['<', '/', 'p', '>', '\n']))) := by
    intro e
    have printed := toList_banner_some [] e
    rwa [List.append_nil] at printed
  cases first with
  | none =>
    cases second with
    | none => rfl
    | some d => exact absurd (same.trans (whole d)) nofun
  | some e =>
    cases second with
    | none => exact absurd ((whole e).symm.trans same) nofun
    | some d =>
      rw [whole, whole] at same
      have text : (markup e).toList = (markup d).toList :=
        List.append_cancel_right (List.append_cancel_left (List.append_cancel_left
          (List.append_cancel_left same)))
      rw [toList_markup_inj.mp text]

/-- The options tell of the current route only whether it is theirs. -/
theorem optionsOf_congr {current current' : String} {routes : List String}
    (same : ∀ route ∈ routes, route = current ↔ route = current') :
    optionsOf current routes = optionsOf current' routes := by
  have each : ∀ route ∈ routes, (option current route).toList = (option current' route).toList := by
    intro route mem
    unfold option
    simp only [same route mem]
  unfold optionsOf
  rw [List.flatMap_def, List.flatMap_def, List.map_congr_left each]

/-- What a page was made from can be told from it. -/
theorem page_parts {current' : String} {routes' : List String} {tree' : Option Nested}
    {error' : Option String}
    (same : page current routes tree error = page current' routes' tree' error') :
    current = current' ∧ routes = routes' ∧ tree = tree' ∧ error = error' := by
  have options := congrArg choices same
  have data := congrArg embedded? same
  rw [choices_page, choices_page] at options
  rw [embedded?_page, embedded?_page, Option.some_inj, treeData_inj] at data
  have listed : routes = routes' := by
    have values := congrArg (List.map fun choice => (choice.map Choice.value).getD "") options
    simpa [Function.comp_def] using values
  subst listed data
  have chosen : ∀ route ∈ routes, route = current ↔ route = current' := by
    simpa using options
  have text := congrArg String.toList same
  rw [toList_page, toList_page, optionsOf_congr chosen] at text
  have shown := List.append_cancel_left (List.append_cancel_left (List.append_cancel_left text))
  obtain ⟨tag, begins⟩ := List.head?_eq_some_iff.mp head?_behindCurrent
  have absent : ∀ s, '<' ∉ (markup s).toList := not_mem_markup (by decide)
  unfold afterCurrent at shown
  rw [begins, List.cons_append, List.cons_append] at shown
  obtain ⟨code, rest⟩ := append_cons_inj (absent current) (absent current') shown
  have banners := List.append_cancel_right (List.append_cancel_left rest)
  exact ⟨toList_markup_inj.mp code, rfl, rfl, toList_banner_inj.mp banners⟩

/-- Whatever the page is made from, its options, the mark of the chosen one and the error are those that
are meant and no others, and no other routes, tree or error make the same page. -/
theorem page_unambiguous :
    choices (page current routes tree error) =
        routes.map (fun route => some ⟨route, route = current⟩) ∧
      occurrences "<option " (page current routes tree error) = routes.length ∧
      occurrences " selected>" (page current routes tree error) = routes.count current ∧
      occurrences "class=\"error\"" (page current routes tree error) =
        (if error.isSome then 1 else 0) ∧
      ∀ current' routes' tree' error',
        page current routes tree error = page current' routes' tree' error' ↔
          current = current' ∧ routes = routes' ∧ tree = tree' ∧ error = error' := by
  refine ⟨choices_page .., occurrences_option_page .., occurrences_selected_page ..,
    occurrences_error_page .., fun current' routes' tree' error' => ⟨page_parts _ _ _ _, ?_⟩⟩
  rintro ⟨rfl, rfl, rfl, rfl⟩
  rfl

/-- The data in the page is the tree's JSON with three characters written otherwise, and it is read as the
tree from which the page was made, or refused if the tree is higher than what can be read. -/
theorem embedded_data_reads_back :
    embedded? (page current routes tree error) = some (treeData tree) ∧
      (treeData tree).toList = (tree.elim Json.null Nested.toJson).compact.flatMap escapeScript ∧
      '<' ∉ (treeData tree).toList ∧ '>' ∉ (treeData tree).toList ∧ '&' ∉ (treeData tree).toList ∧
      Nested.ofText? (treeData tree) =
        if ∀ t ∈ tree, t.height + 1 ≤ 63 then .ok tree else .error .malformed := by
  have plain : ∀ c ∈ scriptDelimiters, c ∉ (treeData tree).toList :=
    fun c special => not_mem_treeData special tree
  exact ⟨embedded?_page .., toList_treeData tree, plain '<' (by decide), plain '>' (by decide),
    plain '&' (by decide), ofText?_treeData tree⟩

end RouteTrees.Panel
