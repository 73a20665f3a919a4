import RouteTrees.Panel.Basic
import RouteTrees.Proofs.Json.Layout
import RouteTrees.Proofs.Panel.Page

/-!
# From the selector back to the panel

Whatever the routes of a project are called, each option of the page holds its route, the message that asks
for it is read back from its text, and the panel changes to it.
-/

namespace RouteTrees

namespace Text

variable {blank text : List Char}

/-- Blanks before a text are passed over up to its first character. -/
theorem dropWhile_blank_append (white : blank.all isWhiteSpace = true)
    (solid : ∀ c ∈ text.head?, isWhiteSpace c = false) :
    (blank ++ text).dropWhile isWhiteSpace = text := by
  rw [List.dropWhile_append_of_pos (List.all_eq_true.mp white)]
  cases text with
  | nil => rfl
  | cons c cs => exact List.dropWhile_cons_of_neg (ne_true_of_eq_false (solid c rfl))

/-- The white space around a text that neither begins nor ends with any is taken away. -/
theorem trim_between {before text after : String} (blank : isBlank before = true)
    (blank' : isBlank after = true) {first last : Char} {inner : List Char}
    (spelled : text.toList = first :: inner ++ [last]) (solid : isWhiteSpace first = false)
    (solid' : isWhiteSpace last = false) : trim (before ++ text ++ after) = text := by
  have front : (before.toList ++ (text.toList ++ after.toList)).dropWhile isWhiteSpace =
      text.toList ++ after.toList := by
    refine dropWhile_blank_append blank fun c head => ?_
    rw [spelled] at head
    exact Option.some.inj head ▸ solid
  have back : (after.toList.reverse ++ text.toList.reverse).dropWhile isWhiteSpace =
      text.toList.reverse := by
    refine dropWhile_blank_append ?_ fun c head => ?_
    · rw [List.all_reverse]
      exact blank'
    · rw [spelled, List.reverse_append] at head
      exact Option.some.inj head ▸ solid'
  unfold trim
  rw [String.toList_append, String.toList_append, List.append_assoc, front, List.reverse_append, back,
    List.reverse_reverse, String.ofList_toList]

end Text

namespace Panel.Message

open Json Json.Read

/-! ## Reading a message -/

/-- The command is read. -/
theorem reads_readCommand : Reads readCommand (.text changeRouteCommand) (.ok ()) := by
  intro gap text blank spelled rest
  rw [readCommand, bind_apply, reads_expectText _ _ gap text blank spelled]
  simp only [Except.map, if_true]
  rfl

/-- The field of the command is read. -/
theorem command_read (depth : Nat) :
    ReadsNamed (readField depth {} "command") (.text changeRouteCommand) (.ok { command := true }) := by
  have read := reads_readCommand.map fun _ => ({ command := true } : Draft)
  rw [readField, if_pos rfl]
  exact read.behind_colon

/-- The field of the route is read, and kept until the command is known. -/
theorem route_read (depth : Nat) (d : Draft) (route : String) :
    ReadsNamed (readField depth d "route") (.text route)
      (.ok { d with rest := d.rest ++ [("route", .text route)] }) := by
  have other : ¬"route" = "command" := by decide
  have read := (reads_value_text depth route).map fun v => { d with rest := d.rest ++ [("route", v)] }
  rw [readField, if_neg other]
  exact read.behind_colon

theorem routeOfFields_route (route : String) : routeOfFields none [("route", .text route)] = .ok route := by
  rw [routeOfFields, if_pos rfl]
  rfl

/-- A message is read back from its JSON, whatever the route is called and however that is laid out. -/
theorem reads_read (m : Message) : Reads read m.toJson (.ok m) := by
  obtain ⟨route⟩ := m
  intro gap text blank spelled rest
  have fields : ReadsFields (readField (depthLimit - 1)) {}
      [("command", .text changeRouteCommand), ("route", .text route)]
      (.ok { command := true, rest := [("route", .text route)] }) :=
    .cons (command_read _) (.cons (route_read _ _ route) .nil)
  rw [toJson] at spelled
  cases spelled with
  | object spelled =>
    have found := fields.fields_eq spelled rest
    rw [read, List.append_assoc, peek_bind_append blank, List.cons_append, peek_bind_cons rfl]
    simp only [bind_apply, drop, List.tail_cons, found, Except.map, if_true, routeOfFields_route]
    rfl

theorem numberless_toJson (m : Message) : m.toJson.Numberless := by
  obtain ⟨route⟩ := m
  rw [toJson]
  refine .object fun f mem => ?_
  simp only [List.mem_cons, List.not_mem_nil, or_false] at mem
  rcases mem with rfl | rfl
  · exact .text changeRouteCommand
  · exact .text route

/-- A message reads back from its compact text. -/
theorem gives_read (m : Message) : Gives read m.toJson.compact (.ok m) := by
  have spelled := spells_compact respells_self m.numberless_toJson
  rw [List.flatMap_singleton'] at spelled
  exact m.reads_read [] _ isGap_nil spelled

/-- The text of a message, with any white space around it, is that message. -/
theorem parse_text_between {before after : String} (blank : Text.isBlank before = true)
    (blank' : Text.isBlank after = true) (m : Message) :
    parse (before ++ m.text ++ after) = .ok m := by
  have given := gives_read m
  have spelled : m.text.toList = '{' :: compactFields [("command", .text changeRouteCommand),
      ("route", .text m.1)] ++ ['}'] := by
    rw [text, String.toList_ofList]
    rfl
  rw [parse, Text.trim_between blank blank' spelled rfl rfl, text]
  exact given.parse_eq

end Panel.Message

namespace Panel

/-! ## Choosing a route -/

/-- A panel changes to a route if the project has it. -/
theorem handle_changeRoute (p : Panel) (route : String) : p.handle (.changeRoute route) =
    if route ∈ p.forest.paths then .ok { p with current := route }
    else .error (.unknownRoute route) := by
  unfold handle select Forest.contains
  simp only [List.contains_iff_mem]

/-- Each option of a panel's document stands for a route to which the panel changes: the message that asks
for it is read back from its text, with whatever white space around it, and the panel does as asked. -/
theorem option_changes_route (p : Panel) (choice : Option Choice)
    (offered : choice ∈ choices p.document) :
    ∃ route selected, choice = some ⟨route, selected⟩ ∧
      (∀ before after, Text.isBlank before = true → Text.isBlank after = true →
        Message.parse (before ++ (Message.changeRoute route).text ++ after) =
          .ok (.changeRoute route)) ∧
      ∃ q, p.handle (.changeRoute route) = .ok q ∧ q.current = route ∧ q.forest = p.forest := by
  rw [document, choices_page] at offered
  obtain ⟨route, listed, rfl⟩ := List.mem_map.mp offered
  refine ⟨route, _, rfl, fun before after blank blank' => ?_, ⟨p.forest, route⟩, ?_, rfl, rfl⟩
  · exact Message.parse_text_between blank blank' (.changeRoute route)
  · rw [handle_changeRoute, if_pos listed]

/-- A route whose name has to be written otherwise in an attribute, in JSON, or in both. -/
def oddRoute : String := "/\"&\\<\n'é/"

/-- A panel with a route that needs every kind of escape. -/
def oddSample : Panel where
  forest.outcomes := ["/", oddRoute].map fun route =>
    ⟨⟨route, ⟨"/page.ts"⟩⟩, .ok (.ofRoot ⟨route, ⟨"/page.ts"⟩, none⟩)⟩
  forest.filesRead := 1
  current := "/"

/-- The option of the odd route, read back from the document, chooses it. -/
theorem option_changes_route_sample :
    some ⟨oddRoute, false⟩ ∈ choices oddSample.document ∧
      Message.parse (" \n" ++ (Message.changeRoute oddRoute).text ++ "\t") =
        .ok (.changeRoute oddRoute) ∧
      ∃ q, oddSample.handle (.changeRoute oddRoute) = .ok q ∧ q.current = oddRoute ∧
        q.forest = oddSample.forest := by
  have offered : some ⟨oddRoute, false⟩ ∈ choices oddSample.document := by
    rw [document, choices_page]
    exact List.mem_cons_of_mem _ (List.mem_singleton.mpr rfl)
  obtain ⟨route, selected, same, parsed, changed⟩ := option_changes_route oddSample _ offered
  cases same
  exact ⟨offered, parsed _ _ rfl rfl, changed⟩

end Panel

end RouteTrees
