/-!
# Naming conventions

The names and extensions that give files and directories their role in a project. Lists that are tried
in turn are in order of priority.
-/

namespace RouteTrees.Convention

/-- The extensions of the files that are indexed. -/
def sourceExtensions : List String := ["ts", "tsx", "js", "jsx"]

/-- The extensions that a specifier may leave out, in the order in which they are tried. -/
def resolveExtensions : List String := ["ts", "tsx", "js", "jsx"]

/-- The files that stand for the directory they are in, in the order in which they are tried. -/
def indexFiles : List String := ["index.ts", "index.tsx", "index.js", "index.jsx"]

/-- Names, without extension, of the files that define a route. -/
def entryStems : List String := ["page", "layout"]

/-- The extensions of an entry file, the preferred one first. -/
def entryExtensions : List String := ["tsx", "ts", "jsx", "js"]

/-- The directories that are never entered. -/
def ignoredDirectories : List String := ["node_modules", ".next", ".git"]

/-- The names a configuration may have, the preferred one first. -/
def compilerConfigs : List String := ["tsconfig.json", "jsconfig.json"]

/-- The directive that makes a module a component of the client. -/
def clientDirective : String := "use client"

end RouteTrees.Convention
