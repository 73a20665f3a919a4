import RouteTrees.Project.ModuleFile

/-!
# Modules that have been read

Builds of several routes share what they have read. A build is therefore written as a program whose only
effects are to look a file up in the cache and to remember one, one at a time; what others do to the cache
between two of its steps is up to whoever runs it. `Build.run` runs one build alone.
-/

namespace RouteTrees

open Script (Module)

/-- The modules that have been read, by file, each once. Paths that say the same are one file to it. -/
structure ModuleCache where
  entries : List (Path × Module)
deriving Repr

namespace ModuleCache

/-- The cache in which nothing has been read yet. -/
def empty : ModuleCache := ⟨[]⟩

/-- The number of files that have been read. -/
def size (c : ModuleCache) : Nat := c.entries.length

/-- The module in a file, if it has been read. -/
def get? (c : ModuleCache) (file : Path) : Option Module :=
  (c.entries.find? fun e => e.1.same file).map (·.2)

/-- Remembers the module in a file. -/
def insert (c : ModuleCache) (file : Path) (m : Module) : ModuleCache :=
  if (c.get? file).isSome then
    ⟨c.entries.map fun e => if e.1.same file then (e.1, m) else e⟩
  else ⟨(file, m) :: c.entries⟩

end ModuleCache

/-- Why a tree cannot be built. -/
inductive BuildError where
  /-- A file on the way gives no module. -/
  | module (error : ModuleError)
deriving DecidableEq, Repr

namespace BuildError

/-- Why a tree was not built, the outer cause first. -/
def causes : BuildError → List String
  | module e => e.causes

/-- What is said of a tree that was not built. -/
def message (e : BuildError) : String := ": ".intercalate e.causes

end BuildError

/-- A program that shares a cache with others. -/
inductive Build (α : Type) where
  | done (a : α)
  | failed (e : BuildError)
  | lookUp (file : Path) (next : Option Module → Build α)
  | remember (file : Path) (m : Module) (next : Build α)

namespace Build

variable {α β : Type}

/-- Goes on with what a program answers. -/
def bind : Build α → (α → Build β) → Build β
  | done a, f => f a
  | failed e, _ => failed e
  | lookUp file next, f => lookUp file fun found => (next found).bind f
  | remember file m next, f => remember file m (next.bind f)

/-- One build after another shares the cache, and the first failure ends them. -/
instance : Monad Build where
  pure := done
  bind := bind

/-- Runs a program alone, from a cache on. What was read stays in the cache also if the program fails. -/
def run : Build α → ModuleCache → Except BuildError α × ModuleCache
  | done a, cache => (.ok a, cache)
  | failed e, cache => (.error e, cache)
  | lookUp file next, cache => (next (cache.get? file)).run cache
  | remember file m next, cache => next.run (cache.insert file m)

end Build

/-- The module in a file, read only if it has not been before. -/
def Disk.recall (d : Disk) (file : Path) : Build Module :=
  .lookUp file fun
    | some m => .done m
    | none =>
      match d.module file with
      | .ok m => .remember file m (.done m)
      | .error e => .failed (.module e)

end RouteTrees
