import RouteTrees.Disk.Locate
import RouteTrees.Project.Convention
import RouteTrees.Script.Module

/-!
# Modules in files

The extension of a file says which dialect it is written in: whether types may occur in it, and whether
elements may. A file that cannot be read and one that is no module are told apart, with their causes.
-/

namespace RouteTrees

/-- The dialect of a file. Only a file with types and without elements may write a cast in angles. -/
def Script.Dialect.ofPath (file : Path) : Script.Dialect where
  types := file.extension? = some "ts" || file.extension? = some "tsx"
  markup := file.extension? ≠ some "ts"

/-- Whether one of the directives of a module makes it a client module. -/
def Script.Module.isClient (m : Script.Module) : Bool :=
  m.directives.contains Convention.clientDirective

/-- Why a file gives no module. -/
inductive ModuleError where
  | unreadable (file : Path) (failure : Disk.Failure)
  | malformed (file : Path) (mistakes : List String)
deriving DecidableEq, Repr

namespace ModuleError

/-- What is said of a text that is no module: how many mistakes it has, and the first of them. A reader that
made out none has counted one, that it gave up. -/
def summary (mistakes : List String) : String :=
  toString (max mistakes.length 1) ++ " syntax error(s), first: " ++ mistakes.headD "parser aborted"

/-- What is said of a text in which one mistake was made out. -/
def syntaxMessage : String := summary [Script.Module.mistake]

/-- What went wrong, the reason last. -/
def causes : ModuleError → List String
  | unreadable file failure => ["Failed to read " ++ file.text, failure.message]
  | malformed file mistakes => ["Failed to parse " ++ file.text, summary mistakes]

/-- What is said of a file that was not read as a module, the outer cause first. -/
def message (e : ModuleError) : String := ": ".intercalate e.causes

end ModuleError

/-- The module that a file holds, if it can be read and parsed. -/
def Disk.module (d : Disk) (file : Path) : Except ModuleError Script.Module :=
  match d.readText file with
  | .error e => .error (.unreadable file e)
  | .ok text =>
    match Script.Module.parse (.ofPath file) text with
    | .ok m => .ok m
    | .error mistakes => .error (.malformed file mistakes)

/-- From a text that is a module it is read. -/
theorem Disk.module_of_parse? {d : Disk} {file : Path} {text : String} {m : Script.Module}
    (readable : d.readText file = .ok text) (parsed : Script.Module.parse? (.ofPath file) text = some m) :
    d.module file = .ok m := by
  rw [module, readable]
  simp only [Script.Module.parse, parsed]

/-- A file that can be read and is refused by the grammar fails with its path and the mistake. -/
theorem Disk.module_of_refused {d : Disk} {file : Path} {text : String} (readable : d.readText file = .ok text)
    (refused : Script.Module.parse? (.ofPath file) text = none) :
    d.module file = .error (.malformed file [Script.Module.mistake]) := by
  rw [module, readable]
  simp only [Script.Module.parse, refused]

namespace ModuleError

/-- Of every text that is no module one thing is said. -/
theorem summary_of_parse {dialect : Script.Dialect} {text : String} {mistakes : List String}
    (failed : Script.Module.parse dialect text = .error mistakes) : summary mistakes = syntaxMessage := by
  rw [Script.Module.parse] at failed
  split at failed
  · cases failed
  · cases failed
    rfl

/-- An error names the file that was to be read. -/
theorem exists_causes_of_module {d : Disk} {file : Path} {e : ModuleError} (failed : d.module file = .error e) :
    e.causes = ["Failed to parse " ++ file.text, syntaxMessage] ∨
      ∃ failure, d.readText file = .error failure ∧
        e.causes = ["Failed to read " ++ file.text, failure.message] := by
  rw [Disk.module] at failed
  split at failed
  · next failure unread =>
    cases failed
    exact .inr ⟨failure, unread, rfl⟩
  · next text readable =>
    split at failed
    · cases failed
    · next mistakes parsed =>
      cases failed
      exact .inl (by rw [causes, summary_of_parse parsed])

end ModuleError

end RouteTrees
