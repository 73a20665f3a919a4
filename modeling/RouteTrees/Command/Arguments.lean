import RouteTrees.Project.Settings

/-!
# Arguments

What is said on the command line: the name of a command, then its options in any order, each at most
once. The value of an option stands behind an equals sign or in the next argument, which may not look like
an option itself. All else is refused.
-/

namespace RouteTrees

/-- What the program is asked to do. -/
inductive Command where
  /-- List the routes. -/
  | routes (settings : Settings)
  /-- Print the trees of all routes, or of one, as text or as data. -/
  | tree (settings : Settings) (route : Option String) (json : Bool)
  /-- Write the document of a route. -/
  | html (settings : Settings) (route : Option String) (output : Path)
  /-- Keep a document up to date with the messages that come in. -/
  | panel (settings : Settings) (output : Path)

namespace Command

/-- Where the project is, and what it is called there. -/
def settings : Command → Settings
  | routes s => s
  | tree s _ _ => s
  | html s _ _ => s
  | panel s _ => s

/-- The same command about a project somewhere else. -/
def placed (root : Path) : Command → Command
  | routes s => routes { s with root := some root }
  | tree s route json => tree { s with root := some root } route json
  | html s route output => html { s with root := some root } route output
  | panel s output => panel { s with root := some root } output

/-- The options that were given. -/
structure Options where
  values : List (String × String) := []
  flags : List String := []
deriving DecidableEq, Repr

namespace Options

/-- The value that was given for an option. -/
def get? (o : Options) (name : String) : Option String := o.values.lookup name

/-- Takes in the value of an option that was not given before. -/
def addValue? (o : Options) (name value : String) : Option Options :=
  if (o.get? name).isSome then none else some { o with values := o.values ++ [(name, value)] }

/-- Takes in an option without value that was not given before. -/
def addFlag? (o : Options) (name : String) : Option Options :=
  if o.flags.contains name then none else some { o with flags := o.flags ++ [name] }

/-- The name of an option, and its value if there is an equals sign. -/
def splitArgument? (argument : String) : Option (String × Option String) :=
  match argument.toList with
  | '-' :: '-' :: cs =>
    let name := cs.takeWhile (· ≠ '=')
    match cs.dropWhile (· ≠ '=') with
    | [] => some (String.ofList name, none)
    | _ :: value => some (String.ofList name, some (String.ofList value))
  | _ => none

/-- Whether an argument looks like an option, and so is not the value of one. -/
def looksLikeOption (argument : String) : Bool :=
  match argument.toList with
  | '-' :: _ :: _ => true
  | _ => false

/-- Reads options, of which some take a value and some are flags. Two dashes may end them. -/
def read? (valued flags : List String) : List String → Options → Option Options
  | [], o => some o
  | [argument], o =>
    if argument = "--" then some o
    else match splitArgument? argument with
      | some (name, some value) => if valued.contains name then o.addValue? name value else none
      | some (name, none) => if flags.contains name then o.addFlag? name else none
      | none => none
  | argument :: next :: rest, o =>
    match splitArgument? argument with
    | some (name, some value) =>
      if valued.contains name then (o.addValue? name value).bind (read? valued flags (next :: rest))
      else none
    | some (name, none) =>
      if flags.contains name then (o.addFlag? name).bind (read? valued flags (next :: rest))
      else if valued.contains name && !looksLikeOption next then
        (o.addValue? name next).bind (read? valued flags rest)
      else none
    | none => none

/-- The path that an option names, which may not be empty; `fallback` if it was not given. -/
def path? (o : Options) (name : String) (fallback : Option Path) : Option (Option Path) :=
  match o.get? name with
  | none => some fallback
  | some "" => none
  | some text => some (some ⟨text⟩)

/-- The settings among the options, each with what it is if nothing was said. -/
def settings? (o : Options) : Option Settings := do
  let root ← o.path? "root" none
  pure {
    root := root
    framework := (o.get? "framework").getD "next"
    routingName := (o.get? "app-dir").getD "app" }

/-- The file among the options to which a document is written. -/
def output? (o : Options) : Option Path := do
  let file ← o.path? "output" (some ⟨"nextree.html"⟩)
  file

/-- The options that every command takes. -/
def common : List String := ["root", "framework", "app-dir"]

end Options

/-- The command of a name, with the options that it takes. -/
def ofOptions? : String → List String → Option Command
  | "routes", arguments => do
    let o ← Options.read? Options.common [] arguments {}
    pure (routes (← o.settings?))
  | "tree", arguments => do
    let o ← Options.read? (Options.common ++ ["route"]) ["json"] arguments {}
    pure (tree (← o.settings?) (o.get? "route") (o.flags.contains "json"))
  | "html", arguments => do
    let o ← Options.read? (Options.common ++ ["route", "output"]) [] arguments {}
    pure (html (← o.settings?) (o.get? "route") (← o.output?))
  | "panel", arguments => do
    let o ← Options.read? (Options.common ++ ["output"]) [] arguments {}
    pure (panel (← o.settings?) (← o.output?))
  | _, _ => none

/-- The command that some arguments say, if they say one. -/
def ofArguments? : List String → Option Command
  | [] => none
  | name :: arguments => ofOptions? name arguments

def usage : String :=
  "Usage: nextree <routes|tree|html|panel> [--root <ROOT>] [--framework <FRAMEWORK>] " ++
    "[--app-dir <APP_DIR>] [--route <ROUTE>] [--json] [--output <OUTPUT>]\n"

end Command

end RouteTrees
