import RouteTrees.Command.Response

/-!
# The program

The outer layer of the command line: it takes in the files of the project once, asks the library what is
to be done, and does it. What lies outside of the project's directory is seen only where a link or an alias
of the project leads to it. A file that cannot be read is taken in as bytes that are no text, so what asks for
it fails as well; what is neither file nor directory is taken in as a link that leads nowhere.
-/

namespace RouteTrees.Program

open Command

/-- The place that a text names, without links, if there is something. -/
def realPlace? (path : String) : IO (Option String) := do
  try
    pure (some (toString (← IO.FS.realPath path)))
  catch _ => pure none

/-- What stands for the content of a file that cannot be read: a byte that no text holds. -/
def unread : ByteArray := ⟨#[0xff]⟩

/-- Takes in what is at a place without links that is no directory whose entries can be told. -/
def takeInFile (place : String) : IO Node := do
  match (← (← IO.FS.realPath place).metadata).type with
  | .dir => pure (.dir [])
  | .file =>
    try
      pure (.file (← IO.FS.readBinFile place))
    catch _ => pure (.file unread)
  | _ => pure (.link "")

/-- Takes in what is at a place without links, down to the links below it. -/
partial def takeIn (place : String) : IO Node := do
  let entries ← try
      pure (some (← (← IO.FS.realPath place).readDir))
    catch _ => pure none
  match entries with
  | none => takeInFile place
  | some entries =>
    let found ← entries.toList.mapM fun e => do
      let below := (if place = "/" then "" else place) ++ "/" ++ e.fileName
      match ← realPlace? below with
      | none => pure (e.fileName, Node.link "")
      | some real =>
        if real = below then pure (e.fileName, ← takeIn below)
        else pure (e.fileName, Node.link real)
    pure (.dir found)

/-- The names in the path of a place. -/
def namesOf (place : String) : Place := (Path.mk place).names

/-- Takes in some places, and those that their links lead to. -/
partial def takeInAll (d : Disk) : List String → IO Disk
  | [] => pure d
  | place :: rest => do
    let names := namesOf place
    if (d.root.at? names).isSome then takeInAll d rest
    else
      let n ← takeIn place
      takeInAll (d.put n names) (rest ++ n.targets)

/-- The files that a command is about, and the command for where they are. -/
def survey (c : Command) : IO (Disk × Command) := do
  let current := toString (← IO.currentDir)
  let empty : Disk := ⟨(Node.dir []).put (namesOf current) (.dir []), namesOf current⟩
  match ← realPlace? ((c.settings.root.map (·.text)).getD current) with
  | none => pure (empty, c)
  | some root =>
    let n ← takeIn root
    let d ← takeInAll (empty.put n (namesOf root)) n.targets
    let aliased ← (AliasMap.ofDisk d ⟨root⟩).aliases.filterMapM fun a => realPlace? a.target.text
    pure (← takeInAll d aliased, c.placed ⟨root⟩)

/-- What is said of a failure of the system. -/
def failureText : IO.Error → String
  | .noFileOrDirectory .. => Disk.Failure.missing.message
  | .inappropriateType .. => Disk.Failure.notDirectory.message
  | e => toString e

/-- Does some actions, up to the first that fails, and answers why it did. -/
def perform : List Action → IO (Option Causes)
  | [] => do
    (← IO.getStdout).flush
    pure none
  | .print text :: rest => do
    IO.print text
    perform rest
  | .write file content :: rest => do
    let failure ← try
        IO.FS.writeFile file.text content
        pure none
      catch e => pure (some (failureText e))
    match failure with
    | none => perform rest
    | some e => pure (some (writeCauses file e))
  | .fail causes :: _ => do
    (← IO.getStdout).flush
    pure (some causes)

/-- Tells what went wrong. -/
def complain (causes : Causes) : IO UInt32 := do
  IO.eprint (errorText causes)
  pure 1

/-- The bytes of the next line behind some that have been read, or nothing if none are left. -/
partial def readLine? (input : IO.FS.Stream) (line : ByteArray) : IO (Option ByteArray) := do
  let next ← input.read 1
  match next.data[0]? with
  | none => pure (if line.isEmpty then none else some line)
  | some b => if b = 10 then pure (some line) else readLine? input (line.push b)

/-- Answers the lines that come in, as long as all goes well. -/
partial def converse (colour : Bool) (s : Session) : IO (Option Causes) := do
  match ← readLine? (← IO.getStdin) .empty with
  | none => pure none
  | some line =>
    let (next, actions) := s.answerBytes colour line
    match ← perform actions with
    | none => converse colour next
    | some causes => pure (some causes)

/-- Whether what is printed is to be coloured. -/
def wantsColour : IO Bool := do
  pure (Report.Style.isWanted (← IO.getEnv "CLICOLOR_FORCE") (← IO.getEnv "NO_COLOR")
    (← IO.getEnv "CLICOLOR") (← (← IO.getStdout).isTty))

/-- Does what a command says, and answers the exit code. -/
def execute (c : Command) : IO UInt32 := do
  let began ← IO.monoMsNow
  let colour ← wantsColour
  let (disk, c) ← survey c
  match load disk c.settings with
  | .error causes => complain causes
  | .ok l =>
    let elapsed := toString ((← IO.monoMsNow) - began)
    match c.respond colour elapsed l with
    | .error causes => complain causes
    | .ok r =>
      let failure ← do
        match ← perform r.actions, r.session with
        | none, some s => converse colour s
        | failure, _ => pure failure
      match failure with
      | some causes => complain causes
      | none => pure (UInt32.ofNat r.code)

end RouteTrees.Program

/-- The program: does what its arguments say, or tells how they are to be given. -/
def main (arguments : List String) : IO UInt32 :=
  match RouteTrees.Command.ofArguments? arguments with
  | some c => RouteTrees.Program.execute c
  | none => do
    IO.eprint RouteTrees.Command.usage
    pure 2
