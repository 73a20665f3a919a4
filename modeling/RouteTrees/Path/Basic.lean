/-!
# Paths

A path is a text in which slashes separate segments. Operations that answer a path keep the spelling of
what they do not change; questions about a path, equality and order among them, look at its components,
from which empty segments and idle dots have been dropped.
-/

namespace RouteTrees

/-- A path as it was written. -/
structure Path where
  text : String
deriving DecidableEq, Repr, Inhabited

namespace Path

/-- What a path says, step by step. -/
inductive Component where
  /-- The root of all paths. -/
  | root
  /-- The directory where a relative path starts, when it is written. -/
  | here
  /-- The directory above. -/
  | up
  | name (segment : String)
deriving DecidableEq, Repr, Inhabited

/-- The texts between slashes. -/
def split : List Char → List (List Char)
  | [] => [[]]
  | c :: cs =>
    if c = '/' then [] :: split cs
    else match split cs with
      | [] => [[c]]
      | s :: ss => (c :: s) :: ss

/-- Whether the path starts at the root. -/
def isAbsolute (p : Path) : Bool := p.text.toList.head? = some '/'

/-- A segment that changes nothing wherever it stands behind another. -/
def isIdle (segment : String) : Bool := segment = "" || segment = "."

/-- The segments of a path behind the slash of the root, if it starts there. -/
def segments (p : Path) : List String :=
  let cs := p.text.toList
  (split (if p.isAbsolute then cs.tail else cs)).map String.ofList

/-- The segments of a path from its first: the text before the first slash counts as a segment, unless
the path starts at the root. -/
structure Outline where
  absolute : Bool
  /-- What a relative path starts with, if it is not empty. -/
  start : Option String
  rest : List String

/-- The path taken apart in this way. -/
def outline (p : Path) : Outline :=
  match p.isAbsolute, p.segments with
  | true, ss => ⟨true, none, ss⟩
  | false, [] => ⟨false, none, []⟩
  | false, s :: ss => ⟨false, if s = "" then none else some s, ss⟩

/-- The path put together again. -/
def ofOutline (o : Outline) : Path :=
  ⟨if o.absolute then "/" ++ "/".intercalate o.rest else "/".intercalate (o.start.toList ++ o.rest)⟩

/-- The component that a segment stands for. -/
def componentOf (segment : String) : Component :=
  if segment = ".." then .up else .name segment

/-- What a path says. -/
def components (p : Path) : List Component :=
  let o := p.outline
  (if o.absolute then [.root] else []) ++
    (o.start.toList.map fun s => if s = "." then .here else componentOf s) ++
    ((o.rest.filter fun s => !isIdle s).map componentOf)

/-- The segments up to the last that is not idle. -/
def trimIdle (ss : List String) : List String :=
  (ss.reverse.dropWhile isIdle).reverse

/-- The segments without the last of those that are not idle, and without idle ones at their end. -/
def dropLastSegment? (ss : List String) : Option (List String) :=
  match ss.reverse.dropWhile isIdle with
  | [] => none
  | _ :: before => some (before.dropWhile isIdle).reverse

/-- The path without its last component. The root and the empty path have none above them. -/
def parent? (p : Path) : Option Path :=
  let o := p.outline
  match dropLastSegment? o.rest with
  | some before => some (ofOutline { o with rest := before })
  | none => o.start.map fun _ => ⟨""⟩

/-- The path without the segments at its end that change nothing. -/
def trimmed (p : Path) : Path :=
  let o := p.outline
  ofOutline { o with rest := trimIdle o.rest }

/-- The last component, if it is a name. -/
def fileName? (p : Path) : Option String :=
  match p.components.getLast? with
  | some (.name s) => some s
  | _ => none

/-- The text before and after the last dot of a name. A name that begins with its only dot, or has
none, is all stem. -/
def splitName (name : String) : String × Option String :=
  let cs := name.toList
  let after := (cs.reverse.takeWhile (· ≠ '.')).reverse
  let before := (cs.take (cs.length - after.length)).dropLast
  if before.isEmpty then (name, none) else (String.ofList before, some (String.ofList after))

/-- The last name without its extension. -/
def stem? (p : Path) : Option String := p.fileName?.map fun n => (splitName n).1

/-- What is behind the last dot of the last name, unless the name begins with that dot. -/
def extension? (p : Path) : Option String := p.fileName?.bind fun n => (splitName n).2

/-- The path with the extension of its last name removed, and what follows that name with it. -/
def withoutExtension (p : Path) : Path :=
  match p.fileName? with
  | none => p
  | some n =>
    let t := p.trimmed.text.toList
    ⟨String.ofList (t.take (t.length - n.length)) ++ (splitName n).1⟩

/-- The path that another path means when it is read from this one. -/
def join (base rel : Path) : Path :=
  if rel.isAbsolute || base.text = "" then rel
  else if base.text.toList.getLast? = some '/' then ⟨base.text ++ rel.text⟩
  else ⟨base.text ++ "/" ++ rel.text⟩

/-- The path that is written for components. -/
def ofComponents (cs : List Component) : Path :=
  let written := cs.map fun
    | .root => ""
    | .here => "."
    | .up => ".."
    | .name s => s
  match cs with
  | .root :: _ => ⟨"/" ++ "/".intercalate written.tail⟩
  | _ => ⟨"/".intercalate written⟩

/-- Takes a component into what has been read of a path, latest first: a step up undoes the name before
it, and there is none above the root. -/
def cleanStep (done : List Component) : Component → List Component
  | .here => done
  | .up =>
    match done with
    | .root :: _ => done
    | .name _ :: before => before
    | _ => .up :: done
  | c => c :: done

/-- The shortest path that means the same, as long as no name is a link. -/
def clean (p : Path) : Path :=
  match (p.components.foldl cleanStep []).reverse with
  | [] => ⟨"."⟩
  | cs => ofComponents cs

/-- The order of components of different kinds. -/
def Component.rank : Component → Nat
  | .root => 0
  | .here => 1
  | .up => 2
  | .name _ => 3

/-- The order of components; names go by their text. -/
def Component.compare : Component → Component → Ordering
  | .name s, .name t => Ord.compare s t
  | a, b => Ord.compare a.rank b.rank

/-- The order of component lists: the first difference decides, and a list comes before those it
begins. -/
def compareComponents : List Component → List Component → Ordering
  | [], [] => .eq
  | [], _ :: _ => .lt
  | _ :: _, [] => .gt
  | a :: as, b :: bs => (a.compare b).then (compareComponents as bs)

/-- Paths are compared component by component. -/
def compare (p q : Path) : Ordering := compareComponents p.components q.components

/-- Whether two paths say the same, however they are written. -/
def same (p q : Path) : Bool := p.components = q.components

/-- What is left of components behind the first of them, if they begin so. -/
def dropComponents : List Component → List Component → Option (List Component)
  | [], cs => some cs
  | _ :: _, [] => none
  | b :: bs, c :: cs => if b = c then dropComponents bs cs else none

/-- The segments behind so many that are not idle, idle ones before the next left out. -/
def dropSegments : Nat → List String → List String
  | _, [] => []
  | n, s :: ss =>
    if isIdle s then dropSegments n ss
    else match n with
      | 0 => s :: ss
      | n + 1 => dropSegments n ss

/-- The path that leads on from a base, if the path begins with it. -/
def stripBase? (p base : Path) : Option Path :=
  match dropComponents base.components p.components with
  | none => none
  | some _ =>
    let o := p.outline
    if base.components.isEmpty then some p.trimmed
    else
      let n := base.components.length - (if o.absolute then 1 else 0) -
        (if o.start.isSome then 1 else 0)
      some (ofOutline ⟨false, none, trimIdle (dropSegments n o.rest)⟩)

/-- How many bytes the path takes. -/
def byteLength (p : Path) : Nat := p.text.utf8ByteSize

/-- The names among the components of the path. -/
def names (p : Path) : List String :=
  p.components.filterMap fun
    | .name s => some s
    | _ => none

end Path

end RouteTrees
