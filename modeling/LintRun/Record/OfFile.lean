import LintRun.FileTree
import LintRun.Record

/-!
# Records from files

A record of a file has the file's absolute path without links, the bytes at it, and a relative path
from a base directory. A file that does not lie below the base is called by its absolute path.
-/
namespace LintRun

/-- A path as it is called from a base directory, both without links and double dots: the names
below the base, or the whole path when it lies elsewhere. -/
def Path.calledFrom (base file : Path) : String :=
  if base.names.isPrefixOf file.names then
    (Path.mk .relative (file.names.drop base.names.length)).toString
  else file.toString

def Path.here : Path := ⟨.relative, []⟩

namespace Record

/-- The record of the file that a path leads to; without a base its relative path starts at the
working directory. -/
def ofFile (tree : FileTree) (cwd : Location) (p : Path) (base : Option Path) :
    Except Error Record := do
  let file ← tree.resolve cwd p
  let base ← tree.resolve cwd (base.getD .here)
  let contents ← (tree.read cwd file).mapError .ofAccess
  return ⟨file, base.calledFrom file, .bytes contents, none⟩

end Record

end LintRun
