import RouteTrees.Disk.Walk
import RouteTrees.Project.FileIndex

/-!
# The source files of a project

Which of the things met on a walk are source files. The index of a project holds them under the names
that they have once links are followed.
-/

namespace RouteTrees

/-- The source files at or below a directory, in order. What cannot be walked has none. -/
def Disk.sources (d : Disk) (root : Path) : List Path :=
  (((d.walkable root).filter fun e => e.kind = .file && e.path.isSource).map (·.path)).mergeSort
    Path.atMost

/-- The index of the source files at or below a directory. -/
def FileIndex.ofDisk (d : Disk) (root : Path) : FileIndex :=
  FileIndex.ofFiles d.canonical (d.sources root)

end RouteTrees
