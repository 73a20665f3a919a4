import RouteTrees.Command.Action
import RouteTrees.Command.Arguments
import RouteTrees.Panel.Basic
import RouteTrees.Report.Summary
import RouteTrees.Tree.Forest

/-!
# How commands respond

What each command does once the trees of the project are there. The command that keeps a document goes on
with the lines that come in, each of which may hold a message for its panel.
-/

namespace RouteTrees.Command

open Report.Style (paint)

/-- A panel whose document is kept in a file. -/
structure Session where
  panel : Panel
  output : Path

/-- What a command does at once, and what it goes on with. -/
structure Response where
  actions : List Action
  /-- The exit code if all of it succeeds. -/
  code : Nat := 0
  session : Option Session := none

/-- The project and its trees. -/
structure Loaded where
  project : Project
  forest : Forest

/-- Finds the project and builds its trees. -/
def load (d : Disk) (s : Settings) : Except Causes Loaded :=
  match s.load d with
  | (some e, _) => .error [e.message]
  | (none, s) =>
    match s.project? with
    | .error e => .error [e]
    | .ok project =>
      match Forest.ofProject d project with
      | .error e => .error [e.message]
      | .ok forest => .ok ⟨project, forest⟩

/-- A panel, or why there is none. -/
def openPanel (f : Forest) (route : Option String) : Except Causes Panel :=
  match Panel.onRoute f route with
  | .ok p => .ok p
  | .error e => .error [e.message]

/-- The line behind the drawings. -/
def finished (colour : Bool) (elapsed : String) (files : Nat) : String :=
  paint colour .brightBlue "●" ++ " Finished in " ++ paint colour .cyan elapsed ++ "ms on " ++
    paint colour .cyan (toString files) ++ " files.\n"

/-- What is printed of the trees asked for, as data or as drawings. -/
def treeText (colour : Bool) (elapsed : String) (l : Loaded) (route : Option String) (json : Bool) :
    String :=
  if json then String.ofList ((Report.asJson route l.forest).pretty 0) ++ "\n"
  else
    Report.drawings colour l.project.root route l.forest ++
      finished colour elapsed l.forest.filesRead

/-- The response of the command for trees. It fails if a tree that was asked for could not be built. -/
def respondTree (colour : Bool) (elapsed : String) (l : Loaded) (route : Option String) (json : Bool) :
    Except Causes Response :=
  match route.filter fun r => !l.forest.contains r with
  | some r => .error [(Panel.Refusal.unknownRoute r).message]
  | none =>
    .ok {
      actions := [.print (treeText colour elapsed l route json)]
      code := if l.forest.failures.any fun e => Report.isSelected route e.1 then 1 else 0 }

/-- Writes the document of one route and says so. -/
def respondHtml (colour : Bool) (l : Loaded) (route : Option String) (output : Path) :
    Except Causes Response := do
  let p ← openPanel l.forest route
  pure { actions := [
    .write output p.document,
    .print (paint colour .boldGreen "✓" ++ " Wrote " ++ output.text ++ " for route " ++
      paint colour .bold p.current ++ "\n")] }

/-- Writes the document of the first route, says so, and goes on with messages. -/
def respondPanel (colour : Bool) (l : Loaded) (output : Path) : Except Causes Response := do
  let p ← openPanel l.forest none
  pure {
    actions := [
      .write output p.document,
      .print (paint colour .brightBlue "●" ++ " Panel open at " ++ output.text ++ " on route " ++
        paint colour .bold p.current ++ "\n")]
    session := some ⟨p, output⟩ }

/-- How a command responds, given the time that has passed, in text. -/
def respond (colour : Bool) (elapsed : String) (l : Loaded) : Command → Except Causes Response
  | routes _ => .ok { actions := [.print (Report.routeList colour l.forest)] }
  | tree _ route json => respondTree colour elapsed l route json
  | html _ route output => respondHtml colour l route output
  | panel _ output => respondPanel colour l output

namespace Session

/-- What is done for a message, and the session behind it. -/
def answer (colour : Bool) (s : Session) (m : Panel.Message) : Session × List Action :=
  match s.panel.handle m with
  | .ok p =>
    ({ s with panel := p },
      [.write s.output p.document,
       .print (paint colour .cyan "↻" ++ " route " ++ paint colour .bold p.current ++ "\n")])
  | .error e => (s, [.print (paint colour .boldRed "✗" ++ " " ++ e.message ++ "\n")])

/-- What is done for a line. Lines without a message are passed over. -/
def answerLine (colour : Bool) (s : Session) (line : String) : Session × List Action :=
  if Text.isBlank line then (s, [])
  else match Panel.Message.parse line with
    | .ok m => s.answer colour m
    | .error _ => (s, [])

/-- What is done for the bytes of a line. Bytes that are no text cannot be read. -/
def answerBytes (colour : Bool) (s : Session) (line : ByteArray) : Session × List Action :=
  match String.fromUTF8? line with
  | some text => s.answerLine colour text
  | none => (s, [.fail [Disk.Failure.notText.message]])

/-- What is done for some lines, one after the other. -/
def answerAll (colour : Bool) (s : Session) : List ByteArray → List Action
  | [] => []
  | line :: rest =>
    let (next, actions) := s.answerBytes colour line
    actions ++ answerAll colour next rest

end Session

end RouteTrees.Command
