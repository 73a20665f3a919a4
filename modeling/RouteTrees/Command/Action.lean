import RouteTrees.Disk.Locate

/-!
# What commands do

A command prints text and writes files. Its actions are done in order, and what follows a failure is not
done: a file that cannot be written, or input that cannot be read. One path is no file of the disk but leads
back to what the program prints.
-/

namespace RouteTrees.Command

/-- What went wrong, each with its cause behind it. -/
abbrev Causes := List String

/-- Something that a command does. -/
inductive Action where
  | print (text : String)
  | write (file : Path) (content : String)
  /-- Gives up. -/
  | fail (causes : Causes)
deriving DecidableEq, Repr

/-- What is told of a file that cannot be written. -/
def writeCauses (file : Path) (failure : String) : Causes :=
  ["Failed to write " ++ file.text, failure]

/-- How causes are told: the first of them, and those behind it below each other. -/
def errorText : Causes → String
  | [] => "Error\n"
  | [e] => "Error: " ++ e ++ "\n"
  | e :: causes => "Error: " ++ e ++ "\n\nCaused by:\n" ++ String.join (causes.map ("    " ++ · ++ "\n"))

/-- Where a command acts, and what it has printed. -/
structure Stage where
  disk : Disk
  printed : String := ""

/-- Whether a path leads to what the program prints. -/
def isOwnOutput (file : Path) : Bool := file.same ⟨"/dev/stdout"⟩

/-- Does some actions, up to the first that fails. -/
def Stage.perform (s : Stage) : List Action → Stage × Option Causes
  | [] => (s, none)
  | .print text :: rest => Stage.perform { s with printed := s.printed ++ text } rest
  | .write file content :: rest =>
    if isOwnOutput file then Stage.perform { s with printed := s.printed ++ content } rest
    else match s.disk.write file content.toUTF8 with
    | .ok d => Stage.perform { s with disk := d } rest
    | .error e => (s, some (writeCauses file e.message))
  | .fail causes :: _ => (s, some causes)

end RouteTrees.Command
