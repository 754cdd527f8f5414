import LintRun.FileTree

/-!
# Scratch directories

A linter command works in a fresh directory that holds a copy of the file, under its relative
path, and the configuration. A relative path that would leave the directory is cut down to its last
name.
-/
namespace LintRun.Command

def configFilename : String := "lint-config.json"

/-- The name of a copy whose path has no name. -/
def fallbackName : String := "input"

/-- Where the copy of a file lies in a scratch directory; backslashes count as slashes. -/
def scratchPath (relative : String) : String :=
  let p := Path.ofString (relative.map fun c => if c = '\\' then '/' else c)
  if p.isAbsolute || p.names.contains ".." || p.names.isEmpty then
    if p.name = "" then fallbackName else p.name
  else p.toString

def freshDirectory (t : FileTree) (l : Location) : FileTree :=
  (⟨t.entries.filter fun e => !l.isPrefixOf e.1⟩ : FileTree).put l .directory

/-- The directory below `base` on the way to a path that cannot be made. All are made in one go if
the first one has a name that is too long, else one after the other. -/
def longDirectory? (base : Location) (p : Path) : Option Path :=
  if FileTree.isLongPath p.parent.toString then some p.parent
  else
    match (p.parent.names.drop base.length).findIdx? FileTree.isLongName with
    | none => none
    | some 0 => some p.parent
    | some i => some ⟨p.anchor, p.names.take (base.length + i + 1)⟩

def makeParents (t : FileTree) (p : Path) : FileTree :=
  (List.range p.names.length).foldl (fun t i => t.makeDirectory (p.names.take i)) t

/-- Writes a text to a path below `base`, making the directories on the way. -/
def writeText (t : FileTree) (base : Location) (p : Path) (s : String) :
    Except AccessProblem FileTree :=
  if p.holdsNul then .error .nulCharacter
  else
    match longDirectory? base p with
    | some directory => .error (.system ⟨.nameTooLong, directory.toString⟩)
    | none => ((makeParents t p).write [] p (Text.Utf8.encode s)).mapError .system

end LintRun.Command
