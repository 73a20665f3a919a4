import Mathlib.Data.List.TakeWhile
import RouteTrees.Proofs.Command.Runs
import RouteTrees.Proofs.Panel.Runs

/-!
# The panel's command, line by line

A run that keeps a document up to date ends where a single command that writes the document would have
ended: of all lines that come in, only the messages count, each is reported on, and the document is that of
the last route asked for that the project has.
-/

namespace RouteTrees

/-! ## Messages in lines -/

theorem Text.trim_of_isBlank {s : String} (blank : isBlank s = true) : trim s = "" := by
  have front : s.toList.dropWhile isWhiteSpace = [] :=
    List.dropWhile_eq_nil_iff.mpr (List.all_eq_true.mp blank)
  rw [trim, front]
  rfl

namespace Panel

namespace Message

/-- The route that a message asks for. -/
def route : Message → String
  | changeRoute route => route

/-- The messages that lines hold, in order. Blank lines and those that are no message hold none. -/
def inLines (lines : List String) : List Message := lines.filterMap fun line => (parse line).toOption

/-- A blank line is no message. -/
theorem parse_of_isBlank {line : String} (blank : Text.isBlank line = true) :
    parse line = .error .unfinished := by
  rw [parse, Text.trim_of_isBlank blank]
  rfl

/-- A line that is no message leaves the messages as they are. -/
theorem inLines_append_error {line : String} {e : Json.Error} (malformed : parse line = .error e)
    (before after : List String) : inLines (before ++ line :: after) = inLines (before ++ after) := by
  rw [inLines, inLines, List.filterMap_append, List.filterMap_append, List.filterMap_cons, malformed]
  rfl

end Message

/-- The last of the routes asked for that a forest has, or else the one before them. -/
def lastListed (f : Forest) (start : String) (ms : List Message) : String :=
  ((ms.map Message.route).filter f.contains).getLast?.getD start

/-- Behind some messages a panel shows the last route asked for that its forest has. -/
theorem after_eq (p : Panel) (ms : List Message) :
    p.after ms = ⟨p.forest, lastListed p.forest p.current ms⟩ := by
  induction ms generalizing p with
  | nil => rfl
  | cons m ms ih =>
    obtain ⟨route⟩ := m
    have first : p.after (.changeRoute route :: ms) = (p.next (.changeRoute route)).after ms := rfl
    rw [first, ih, next_changeRoute, lastListed, lastListed, List.map_cons, Message.route]
    by_cases listed : route ∈ p.forest.paths
    · have contained : p.forest.contains route = true := List.contains_iff_mem.mpr listed
      rw [if_pos listed, List.filter_cons_of_pos contained, List.getLast?_cons, Option.getD_some]
    · have absent : ¬p.forest.contains route = true := mt List.contains_iff_mem.mp listed
      rw [if_neg listed, List.filter_cons_of_neg absent]

end Panel

namespace Command

open Panel (Message lastListed)
open Report.Style (paint)

/-! ## What is printed -/

/-- What is printed once the panel is open. -/
def opening (colour : Bool) (output : Path) (route : String) : String :=
  paint colour .brightBlue "●" ++ " Panel open at " ++ output.text ++ " on route " ++
    paint colour .bold route ++ "\n"

/-- What is printed when the panel has changed to a route. -/
def routeReport (colour : Bool) (route : String) : String :=
  paint colour .cyan "↻" ++ " route " ++ paint colour .bold route ++ "\n"

/-- What is printed for a route that the project does not have. -/
def unknownReport (colour : Bool) (route : String) : String :=
  paint colour .boldRed "✗" ++ " " ++ ("Unknown route '" ++ route ++ "'") ++ "\n"

/-- What is printed for a message. -/
def report (colour : Bool) (f : Forest) (m : Message) : String :=
  if f.contains m.route then routeReport colour m.route else unknownReport colour m.route

namespace Session

variable {d : Disk} {s : Session} {stage : Stage}

/-- What is done for some messages, one after the other. -/
def answerEach (colour : Bool) (s : Session) : List Message → List Action
  | [] => []
  | m :: rest => (s.answer colour m).2 ++ answerEach colour (s.answer colour m).1 rest

/-- An answer moves the panel on as its message does. -/
theorem answer_fst (colour : Bool) (s : Session) (m : Message) :
    (s.answer colour m).1 = ⟨s.panel.next m, s.output⟩ := by
  rw [answer, Panel.next]
  cases s.panel.handle m with
  | ok p => rfl
  | error e => rfl

theorem answerBytes_toUTF8 (colour : Bool) (s : Session) (line : String) :
    s.answerBytes colour line.toUTF8 = s.answerLine colour line := by
  rw [answerBytes, Text.fromUTF8?_toUTF8]

/-- Of the lines that can be read only the messages count. What is done for the rest of what comes in is done
behind them. -/
theorem answerAll_append (colour : Bool) (s : Session) (lines : List String) (rest : List ByteArray) :
    s.answerAll colour (lines.map String.toUTF8 ++ rest) =
      s.answerEach colour (Message.inLines lines) ++
        Session.answerAll colour ⟨s.panel.after (Message.inLines lines), s.output⟩ rest := by
  induction lines generalizing s with
  | nil => rfl
  | cons line lines ih =>
    rw [List.map_cons, List.cons_append, answerAll, answerBytes_toUTF8, answerLine, Message.inLines,
      List.filterMap_cons]
    by_cases blank : Text.isBlank line = true
    · simp only [blank, if_true, Message.parse_of_isBlank blank]
      exact ih s
    · simp only [blank, Bool.false_eq_true, if_false]
      cases Message.parse line with
      | ok m =>
        dsimp only
        rw [ih, answer_fst, Except.toOption, answerEach, answer_fst, List.append_assoc]
        rfl
      | error e => exact ih s

/-- At a line that cannot be read nothing is done but to give up. -/
theorem answerAll_of_unread {line : ByteArray} (unread : String.fromUTF8? line = none) (colour : Bool)
    (s : Session) (rest : List ByteArray) : s.answerAll colour (line :: rest) =
      .fail [Disk.Failure.notText.message] :: s.answerAll colour rest := by
  rw [answerAll, answerBytes, unread]
  rfl

/-- For a listed route the document is written and the route reported. -/
theorem answer_listed {route : String} (listed : route ∈ s.panel.forest.paths) (colour : Bool) :
    s.answer colour (.changeRoute route) = (⟨{ s.panel with current := route }, s.output⟩,
      [.write s.output { s.panel with current := route : Panel }.document,
       .print (routeReport colour route)]) := by
  rw [answer, Panel.handle_changeRoute, if_pos listed]
  rfl

/-- For a route that is not listed there is only a report. -/
theorem answer_unlisted {route : String} (unlisted : route ∉ s.panel.forest.paths) (colour : Bool) :
    s.answer colour (.changeRoute route) = (s, [.print (unknownReport colour route)]) := by
  rw [answer, Panel.handle_changeRoute, if_neg unlisted]
  rfl

/-- For any messages there is nothing done but to write the document and to print. -/
theorem answerEach_only (colour : Bool) (s : Session) (ms : List Message) :
    ∀ a ∈ s.answerEach colour ms, a = .print a.content ∨ a = .write s.output a.content := by
  induction ms generalizing s with
  | nil => exact fun _ mem => nomatch mem
  | cons m ms ih =>
    obtain ⟨route⟩ := m
    rw [answerEach]
    by_cases listed : route ∈ s.panel.forest.paths
    · rw [answer_listed listed, List.forall_mem_append, List.forall_mem_cons, List.forall_mem_singleton]
      exact ⟨⟨.inr rfl, .inl rfl⟩, ih _⟩
    · rw [answer_unlisted listed, List.forall_mem_append, List.forall_mem_singleton]
      exact ⟨.inl rfl, ih s⟩

/-- The document of a session is all that a stage has changed on a disk. -/
structure Kept (d : Disk) (s : Session) (stage : Stage) : Prop where
  elsewhere : isOwnOutput s.output = false
  written : d.write s.output s.panel.document.toUTF8 = .ok stage.disk

/-- The document is kept by what is done for a message, on which there is a report. -/
theorem Kept.answer (kept : Kept d s stage) (colour : Bool) (m : Message) :
    ∃ next, stage.perform (s.answer colour m).2 = (next, none) ∧ Kept d ⟨s.panel.next m, s.output⟩ next ∧
      next.printed = stage.printed ++ report colour s.panel.forest m := by
  obtain ⟨route⟩ := m
  rw [Panel.next_changeRoute, report, Message.route]
  by_cases listed : route ∈ s.panel.forest.paths
  · have contained : s.panel.forest.contains route = true := List.contains_iff_mem.mpr listed
    obtain ⟨written, write⟩ := Disk.exists_write_of_write kept.written
      { s.panel with current := route : Panel }.document.toUTF8
    have rewritten := (Disk.write_of_write kept.written _).trans write
    rw [answer_listed listed, if_pos listed, if_pos contained]
    refine ⟨⟨written, stage.printed ++ routeReport colour route⟩, ?_, ⟨kept.elsewhere, write⟩, rfl⟩
    rw [stage.perform_write kept.elsewhere rewritten]
    rfl
  · have absent : ¬s.panel.forest.contains route = true := mt List.contains_iff_mem.mp listed
    rw [answer_unlisted listed, if_neg listed, if_neg absent]
    exact ⟨{ stage with printed := stage.printed ++ unknownReport colour route }, rfl,
      ⟨kept.elsewhere, kept.written⟩, rfl⟩

/-- The document is kept by what is done for any messages, on each of which there is a report. -/
theorem Kept.answerEach (kept : Kept d s stage) (colour : Bool) (ms : List Message) :
    ∃ last, stage.perform (s.answerEach colour ms) = (last, none) ∧
      Kept d ⟨s.panel.after ms, s.output⟩ last ∧
      last.printed = stage.printed ++ String.join (ms.map (report colour s.panel.forest)) := by
  induction ms generalizing s stage with
  | nil => exact ⟨stage, rfl, kept, (String.append_empty).symm⟩
  | cons m ms ih =>
    obtain ⟨next, done, kept', printed⟩ := kept.answer colour m
    obtain ⟨last, finished, keptLast, printedLast⟩ := ih kept'
    have same : (s.panel.after [m]).forest = s.panel.forest := by rw [Panel.after_eq]
    refine ⟨last, ?_, keptLast, ?_⟩
    · rw [Session.answerEach, Stage.perform_append, done, answer_fst]
      exact finished
    · rw [printedLast, printed, List.map_cons, String.join_cons, String.append_assoc, ← same]
      rfl

end Session

/-! ## The lines that come in -/

/-- Bytes with no line break among them stand in front of the first line behind them. -/
theorem splitBytes_append {bs : List UInt8} (ne : bs ≠ []) (unbroken : 10 ∉ bs) (rest : List UInt8) :
    splitBytes (bs ++ rest) = match splitBytes rest with
      | [] => [bs]
      | l :: ls => (bs ++ l) :: ls := by
  induction bs with
  | nil => exact absurd rfl ne
  | cons b bs ih =>
    rw [List.mem_cons, not_or] at unbroken
    obtain ⟨first, others⟩ := unbroken
    rw [List.cons_append, splitBytes, if_neg (Ne.symm first)]
    by_cases last : bs = []
    · subst last
      rfl
    · rw [ih last others]
      cases splitBytes rest with
      | nil => rfl
      | cons l ls => rfl

/-- The bytes of a text have the lines of the text. -/
theorem splitBytes_flatMap (cs : List Char) : splitBytes (cs.flatMap String.utf8EncodeChar) =
    (splitLines cs).map (·.flatMap String.utf8EncodeChar) := by
  fun_induction splitLines cs with
  | case1 => rfl
  | case2 cs ih =>
    rw [List.map_cons, ← ih]
    rfl
  | case3 c cs other last ih =>
    rw [List.flatMap_cons, splitBytes_append String.utf8EncodeChar_ne_nil
      (Text.newline_not_mem_utf8EncodeChar other), ih, last, List.map_singleton, List.flatMap_singleton]
    rfl
  | case4 c cs other l ls last ih =>
    rw [List.flatMap_cons, splitBytes_append String.utf8EncodeChar_ne_nil
      (Text.newline_not_mem_utf8EncodeChar other), ih, last]
    rfl

/-- The lines of a text that comes in are those of the text, so they can all be read. -/
theorem linesOf_toUTF8 (s : String) :
    linesOf s.toUTF8 = ((splitLines s.toList).map String.ofList).map String.toUTF8 := by
  have bytes : s.toUTF8.data.toList = s.toList.flatMap String.utf8EncodeChar := Text.bytes_eq s
  rw [linesOf, bytes, splitBytes_flatMap, List.map_map, List.map_map]
  refine List.map_congr_left fun cs _ => ?_
  rw [Function.comp_apply, Function.comp_apply, String.toUTF8, String.toByteArray_ofList, List.utf8Encode]

/-- Whatever comes in begins with lines that can be read, and behind them comes nothing or a line that cannot
be read. -/
theorem exists_readable_lines (input : List ByteArray) : ∃ lines : List String,
    input = lines.map String.toUTF8 ∨ ∃ bad rest, String.fromUTF8? bad = none ∧
      input = lines.map String.toUTF8 ++ bad :: rest := by
  induction input with
  | nil => exact ⟨[], .inl rfl⟩
  | cons line rest ih =>
    cases read : String.fromUTF8? line with
    | none => exact ⟨[], .inr ⟨line, rest, read, rfl⟩⟩
    | some text =>
      obtain ⟨lines, all⟩ := ih
      refine ⟨text :: lines, ?_⟩
      rw [List.map_cons, Text.toUTF8_of_fromUTF8? read]
      rcases all with rfl | ⟨bad, more, unread, rfl⟩
      · exact .inl rfl
      · exact .inr ⟨bad, more, unread, rfl⟩

/-! ## Whole runs -/

variable {d d₀ : Disk} {s : Settings} {l : Loaded} {output : Path} {content : ByteArray}

/-- A run that keeps a document does nothing but write it and print the opening line, then what is done for
the lines that come in. -/
theorem respond_panel {first : String} (opens : Panel.onRoute l.forest none = .ok ⟨l.forest, first⟩)
    (colour : Bool) (elapsed : String) : (panel s output).respond colour elapsed l =
      .ok {
        actions := [.write output (Panel.mk l.forest first).document, .print (opening colour output first)]
        session := some ⟨⟨l.forest, first⟩, output⟩ } := by
  have opened : openPanel l.forest none = .ok ⟨l.forest, first⟩ := by rw [openPanel, opens]
  rw [respond, respondPanel, opened]
  rfl

/-- Behind lines that can be read a run that keeps a document has the document of the last route asked for
that the project has, and has reported on every message. It goes on with the rest of what comes in. -/
theorem run_panel (loaded : load d s = .ok l) (elsewhere : isOwnOutput output = false)
    (writable : d.write output content = .ok d₀) {first : String}
    (opens : Panel.onRoute l.forest none = .ok ⟨l.forest, first⟩) (colour : Bool) (elapsed : String)
    (lines : List String) : ∃ d',
    let shown : Panel := ⟨l.forest, lastListed l.forest first (Message.inLines lines)⟩
    d.write output shown.document.toUTF8 = .ok d' ∧
    ∀ rest, (panel s output).run d colour elapsed (lines.map String.toUTF8 ++ rest) =
      .ofPerformed 0 (Stage.perform ⟨d', opening colour output first ++
        String.join ((Message.inLines lines).map (report colour l.forest))⟩
        (Session.answerAll colour ⟨shown, output⟩ rest)) := by
  obtain ⟨d₁, written⟩ := Disk.exists_write_of_write writable (Panel.mk l.forest first).document.toUTF8
  let session : Session := ⟨⟨l.forest, first⟩, output⟩
  have kept : Session.Kept d session ⟨d₁, opening colour output first⟩ := ⟨elsewhere, written⟩
  obtain ⟨⟨d', printed⟩, done, keptLast, rfl⟩ := kept.answerEach colour (Message.inLines lines)
  have moved := Panel.after_eq ⟨l.forest, first⟩ (Message.inLines lines)
  refine ⟨d', moved ▸ keptLast.written, fun rest => ?_⟩
  have begun : Stage.perform { disk := d } [.write output (Panel.mk l.forest first).document,
      .print (opening colour output first)] = (⟨d₁, opening colour output first⟩, none) := by
    rw [Stage.perform_write { disk := d } elsewhere written]
    rfl
  rw [run_eq loaded rfl (respond_panel opens colour elapsed), actions]
  dsimp only
  rw [Session.answerAll_append, Stage.perform_append, begun]
  dsimp only
  rw [Stage.perform_append, done, moved]

/-- A run that keeps its document in what it prints prints the document wherever it would have been written, and
leaves the disk alone. -/
theorem run_panel_own (loaded : load d s = .ok l) (own : isOwnOutput output = true) {first : String}
    (opens : Panel.onRoute l.forest none = .ok ⟨l.forest, first⟩) (colour : Bool) (elapsed : String)
    (lines : List String) : (panel s output).run d colour elapsed (lines.map String.toUTF8) =
      ⟨0, (Panel.mk l.forest first).document ++ (opening colour output first ++ String.join
        ((Session.answerEach colour ⟨⟨l.forest, first⟩, output⟩ (Message.inLines lines)).map Action.content)),
        "", d⟩ := by
  let session : Session := ⟨⟨l.forest, first⟩, output⟩
  have answered : session.answerAll colour (lines.map String.toUTF8) =
      session.answerEach colour (Message.inLines lines) := by
    have all := session.answerAll_append colour lines []
    rwa [List.append_nil, Session.answerAll, List.append_nil] at all
  have only : ∀ a ∈ .write output (Panel.mk l.forest first).document :: .print (opening colour output first) ::
      session.answerEach colour (Message.inLines lines), a = .print a.content ∨ a = .write output a.content :=
    List.forall_mem_cons.mpr ⟨.inr rfl, List.forall_mem_cons.mpr ⟨.inl rfl, session.answerEach_only colour _⟩⟩
  have done := Stage.perform_own own { disk := d } only
  rw [String.empty_append, List.map_cons, List.map_cons, String.join_cons, String.join_cons] at done
  rw [run_eq loaded rfl (respond_panel opens colour elapsed), actions]
  dsimp only
  rw [answered, List.cons_append, List.cons_append, List.nil_append, done]
  rfl

/-- A run that writes the document of a route changes nothing else. -/
theorem run_html (loaded : load d s = .ok l) (elsewhere : isOwnOutput output = false) {route : String}
    (opens : Panel.onRoute l.forest (some route) = .ok ⟨l.forest, route⟩) {d' : Disk}
    (written : d.write output (Panel.mk l.forest route).document.toUTF8 = .ok d') (colour : Bool)
    (elapsed : String) (input : List ByteArray) : ∃ printed,
    (html s (some route) output).run d colour elapsed input = ⟨0, printed, "", d'⟩ := by
  have opened : openPanel l.forest (some route) = .ok ⟨l.forest, route⟩ := by rw [openPanel, opens]
  obtain ⟨printed, responds⟩ : ∃ printed, (html s (some route) output).respond colour elapsed l =
      .ok { actions := [.write output (Panel.mk l.forest route).document, .print printed] } := by
    rw [respond, respondHtml, opened]
    exact ⟨_, rfl⟩
  refine ⟨"" ++ printed, ?_⟩
  rw [run_eq loaded rfl responds, actions]
  dsimp only
  rw [List.append_nil, Stage.perform_write { disk := d } elsewhere written]
  rfl

/-- If a project is loaded and its document can be written, other than to what the program prints, a run that
keeps the document ends well, whatever lines of text come in. Of these only the messages count: each is
reported on, in order, behind the opening line, and the disk is as it is once the document has been written
for the last route asked for that the project has, or for the first if there is none. A line that is blank or
no message is as if it had not come. A line that is no text ends the run with an error: what was done for the
lines before it remains, and nothing is done for those behind it. -/
theorem panel_run_of_load (loaded : load d s = .ok l)
    (elsewhere : output.components ≠ [.root, .name "dev", .name "stdout"])
    (writable : d.write output content = .ok d₀) :
    ∃ first, l.forest.first? = some first ∧ ∀ colour elapsed (lines : List String),
      let route := lastListed l.forest first (Message.inLines lines)
      let kept := (panel s output).run d colour elapsed (lines.map String.toUTF8)
      kept.code = 0 ∧ kept.errors = "" ∧
      kept.output = opening colour output first ++
        String.join ((Message.inLines lines).map (report colour l.forest)) ∧
      kept.disk.read output = .ok (Panel.mk l.forest route).document.toUTF8 ∧
      (∀ colour' elapsed' input',
        let wrote := (html s (some route) output).run d colour' elapsed' input'
        wrote.code = 0 ∧ wrote.errors = "" ∧ wrote.disk = kept.disk) ∧
      (∀ before line after, lines = before ++ line :: after →
        Text.isBlank line = true ∨ (∃ e, Message.parse line = .error e) →
        (panel s output).run d colour elapsed ((before ++ after).map String.toUTF8) = kept) ∧
      ∀ bad rest, String.fromUTF8? bad = none →
        (panel s output).run d colour elapsed (lines.map String.toUTF8 ++ bad :: rest) =
          ⟨1, kept.output, "Error: stream did not contain valid UTF-8\n", kept.disk⟩ := by
  obtain ⟨-, -, -, built⟩ := load_eq_ok_iff.mp loaded
  have elsewhere := isOwnOutput_eq_false_iff.mpr elsewhere
  have nonempty := Forest.paths_ne_nil built
  obtain ⟨first, listed, opens⟩ := Panel.onFirst_eq nonempty
  refine ⟨first, Panel.first?_of_onFirst opens, fun colour elapsed lines => ?_⟩
  intro route kept
  obtain ⟨d', written, runs⟩ := run_panel loaded elsewhere writable opens colour elapsed lines
  have shown : route ∈ l.forest.paths := by
    have opened : Panel.onRoute l.forest none = .ok ⟨l.forest, first⟩ := opens
    have shows := (Panel.shows_of_onRoute nonempty opened).after (Message.inLines lines)
    rw [Panel.after_eq] at shows
    exact shows.listed
  have opensThere : Panel.onRoute l.forest (some route) = .ok ⟨l.forest, route⟩ := by
    rw [Panel.onRoute_some nonempty, if_pos shown]
  -- a run whose lines all are text is one with nothing behind them
  have ranKept : kept = _ := (congrArg _ (List.append_nil _).symm).trans (runs [])
  rw [ranKept]
  refine ⟨rfl, rfl, rfl, Disk.read_of_write written, fun colour' elapsed' input' => ?_, ?_, ?_⟩
  · obtain ⟨printed, wrote⟩ := run_html loaded elsewhere opensThere written colour' elapsed' input'
    intro run
    have same : run = _ := wrote
    rw [same]
    exact ⟨rfl, rfl, rfl⟩
  · rintro before line after rfl holdsNone
    obtain ⟨e, malformed⟩ : ∃ e, Message.parse line = .error e :=
      holdsNone.elim (fun blank => ⟨_, Message.parse_of_isBlank blank⟩) id
    obtain ⟨d'', written', runs'⟩ := run_panel loaded elsewhere writable opens colour elapsed (before ++ after)
    have sameLines := Message.inLines_append_error malformed before after
    rw [← sameLines] at written' runs'
    cases written.symm.trans written'
    exact (congrArg _ (List.append_nil _).symm).trans (runs' [])
  · intro bad rest unread
    rw [runs, Session.answerAll_of_unread unread]
    rfl

/-- Of a blank line, one for a listed route, one without a message and one for an unlisted route, the second is
answered by the document of its route and the last by a refusal. At a line that is no text the run ends,
though another message comes behind it. -/
theorem panel_run_of_load_sample : ∃ l, load .site {} = .ok l ∧
    let run := (panel {} ⟨"/tree.html"⟩).run .site false "1"
    let lines := [" ", (Message.changeRoute "/broken/").text ++ "\t", "?", (Message.changeRoute "/none/").text]
    let kept := run (lines.map String.toUTF8)
    kept.code = 0 ∧
    kept.output = opening false ⟨"/tree.html"⟩ "/" ++
      (routeReport false "/broken/" ++ unknownReport false "/none/") ∧
    kept.disk.read ⟨"/tree.html"⟩ = .ok (Panel.mk l.forest "/broken/").document.toUTF8 ∧
    ((html {} (some "/broken/") ⟨"/tree.html"⟩).run .site false "1" []).disk = kept.disk ∧
    run (lines.map String.toUTF8 ++ [⟨#[0xff]⟩, (Message.changeRoute "/").text.toUTF8]) =
      ⟨1, kept.output, "Error: stream did not contain valid UTF-8\n", kept.disk⟩ := by
  obtain ⟨d, writable⟩ := exists_write_site
  obtain ⟨l, loaded, -, paths, -⟩ := exists_load_site
  obtain ⟨first, isFirst, runs⟩ := panel_run_of_load loaded (by decide) writable
  have begins : first = "/" := by
    rw [Forest.first?, paths] at isFirst
    exact (Option.some.inj isFirst).symm
  subst begins
  refine ⟨l, loaded, ?_⟩
  intro run lines kept
  have messages : Message.inLines lines = [.changeRoute "/broken/", .changeRoute "/none/"] := by
    decide +kernel
  have contained : l.forest.contains "/broken/" = true ∧ l.forest.contains "/none/" = false := by
    rw [Forest.contains, Forest.contains, paths]
    decide
  obtain ⟨code, -, output, document, wrote, -, unread⟩ := runs false "1" lines
  have shown : lastListed l.forest "/" (Message.inLines lines) = "/broken/" := by
    rw [messages, lastListed]
    simp only [List.map_cons, List.map_nil, Message.route, List.filter_cons, contained]
    rfl
  rw [shown] at document wrote
  refine ⟨code, ?_, document, (wrote false "1" []).2.2, unread _ _ (by decide)⟩
  rw [output, messages]
  simp only [List.map_cons, List.map_nil, report, Message.route, contained]
  rfl

/-- With no regard to what the lines are and where the document goes this does not hold: a line that is no text
ends the run before the message behind it, and a document that goes to what the program prints stands there
between the reports. -/
theorem panel_run_ends_early : ∃ l, load .site {} = .ok l ∧
    let unread := (panel {} ⟨"/tree.html"⟩).run .site false "1"
      [⟨#[0xff]⟩, (Message.changeRoute "/broken/").text.toUTF8]
    let printed := (panel {} ⟨"/dev/stdout"⟩).run .site false "1" [(Message.changeRoute "/broken/").text.toUTF8]
    (unread.code = 1 ∧ unread.output = opening false ⟨"/tree.html"⟩ "/" ∧
      unread.disk.read ⟨"/tree.html"⟩ = .ok (Panel.mk l.forest "/").document.toUTF8) ∧
    printed.output = String.join [(Panel.mk l.forest "/").document, opening false ⟨"/dev/stdout"⟩ "/",
      (Panel.mk l.forest "/broken/").document, routeReport false "/broken/"] ∧
    (Panel.mk l.forest "/broken/").document ≠ "" := by
  obtain ⟨d, writable⟩ := exists_write_site
  obtain ⟨l, loaded, -, paths, -⟩ := exists_load_site
  have listed : "/broken/" ∈ l.forest.paths := by
    rw [paths]
    decide
  have opens : Panel.onRoute l.forest none = .ok ⟨l.forest, "/"⟩ := by
    rw [Panel.onRoute, Panel.onFirst, Forest.first?, paths]
    rfl
  refine ⟨l, loaded, ?_⟩
  intro unread printed
  refine ⟨?_, ?_, ?_⟩
  · -- a line that is no text comes first
    obtain ⟨d', written, runs⟩ := run_panel loaded (isOwnOutput_eq_false_iff.mpr (by decide)) writable opens false "1" []
    have ran : unread = _ := runs [⟨#[0xff]⟩, (Message.changeRoute "/broken/").text.toUTF8]
    rw [Session.answerAll_of_unread (by decide)] at ran
    rw [ran]
    exact ⟨rfl, rfl, Disk.read_of_write written⟩
  · -- the document goes to what is printed, so it stands there twice
    have message : Message.inLines [(Message.changeRoute "/broken/").text] = [.changeRoute "/broken/"] := by
      decide +kernel
    have own : isOwnOutput ⟨"/dev/stdout"⟩ = true := by decide
    have ran : printed = _ := run_panel_own loaded own opens false "1" [(Message.changeRoute "/broken/").text]
    rw [ran, message, Session.answerEach, Session.answer_listed listed]
    simp only [Session.answerEach, List.append_nil, List.map_cons, List.map_nil, Action.content, String.join_cons,
      String.join_nil]
  · intro empty
    have blank : (Panel.mk l.forest "/broken/").document.toList = [] := String.toList_eq_nil_iff.mpr empty
    rw [Panel.document, Panel.toList_page, List.append_eq_nil_iff, Panel.beforeOptions, String.toList_append,
      List.append_eq_nil_iff] at blank
    exact absurd blank.1.2 (by decide)

end Command

end RouteTrees
