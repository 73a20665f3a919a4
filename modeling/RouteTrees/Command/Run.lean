import RouteTrees.Command.Response

/-!
# A whole run

What comes of some arguments and of the lines that come in behind them: what is printed and written, and
the exit code.
-/

namespace RouteTrees.Command

/-- What came of a run. -/
structure Run where
  code : Nat
  output : String
  errors : String
  disk : Disk

/-- The lines of a text; the end of the last may be missing. -/
def splitLines : List Char → List (List Char)
  | [] => []
  | '\n' :: cs => [] :: splitLines cs
  | c :: cs =>
    match splitLines cs with
    | [] => [[c]]
    | l :: ls => (c :: l) :: ls

/-- The lines of some bytes, as those of a text. -/
def splitBytes : List UInt8 → List (List UInt8)
  | [] => []
  | b :: bs =>
    if b = 10 then [] :: splitBytes bs
    else match splitBytes bs with
    | [] => [[b]]
    | l :: ls => (b :: l) :: ls

/-- The lines that come in, with what is not known to be text. -/
def linesOf (input : ByteArray) : List ByteArray := (splitBytes input.data.toList).map List.toByteArray

/-- All that is done in response to a command and the lines behind it. -/
def actions (colour : Bool) (r : Response) (input : List ByteArray) : List Action :=
  r.actions ++ match r.session with
    | some s => s.answerAll colour input
    | none => []

/-- What comes of a command. If it fails, what was done before remains. -/
def run (d : Disk) (colour : Bool) (elapsed : String) (c : Command) (input : List ByteArray) : Run :=
  match (load d c.settings).bind fun l => c.respond colour elapsed l with
  | .error causes => ⟨1, "", errorText causes, d⟩
  | .ok r =>
    match Stage.perform { disk := d } (actions colour r input) with
    | (s, none) => ⟨r.code, s.printed, "", s.disk⟩
    | (s, some causes) => ⟨1, s.printed, errorText causes, s.disk⟩

/-- Runs what some arguments say, with some bytes that come in. -/
def runOn (d : Disk) (colour : Bool) (elapsed : String) (arguments : List String) (input : ByteArray) : Run :=
  match ofArguments? arguments with
  | some c => c.run d colour elapsed (linesOf input)
  | none => ⟨2, "", usage, d⟩

/-- Runs what some arguments say, with some text that comes in. -/
def runArguments (d : Disk) (colour : Bool) (elapsed : String) (arguments : List String)
    (input : String) : Run :=
  runOn d colour elapsed arguments input.toUTF8

end RouteTrees.Command
