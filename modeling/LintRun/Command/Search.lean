import LintRun.FileTree

/-!
# Looking for programs

The first word of a command names a program. An absolute path is taken as it is; a name with a
slash must be an executable file; any other name is looked for in the directories of the search
path, where an empty one is the working directory.
-/
namespace LintRun.Command

def splitColons : List Char → List (List Char)
  | [] => [[]]
  | c :: rest =>
    match splitColons rest with
    | [] => [[c]]
    | first :: others => if c = ':' then [] :: first :: others else (c :: first) :: others

/-- The directories of a search path; an empty path has none. -/
def directories (searchPath : String) : List String :=
  if searchPath = "" then [] else (splitColons searchPath.toList).map String.ofList

def inDirectory (directory name : String) : String :=
  if name.startsWith "/" then name
  else if directory = "" || directory.endsWith "/" then directory ++ name
  else directory ++ "/" ++ name

structure SearchSpace where
  tree : FileTree
  cwd : Location
  searchPath : String

def SearchSpace.find? (s : SearchSpace) (name : String) : Option String :=
  if name.toList.contains '/' then
    if s.tree.isExecutable s.cwd name then some name else none
  else
    (directories s.searchPath).findSome? fun d =>
      let text := inDirectory d name
      if s.tree.isExecutable s.cwd text then some text else none

inductive SearchProblem where
  | noWords
  | notFound (name : String)
  deriving DecidableEq, Repr

def SearchProblem.message : SearchProblem → String
  | .noWords => "subprocess command requires at least one argument"
  | .notFound name => s!"Executable '{name}' was not found on PATH"

/-- The words of a command, the first one told as the program that was found. -/
def SearchSpace.locate (s : SearchSpace) : List String → Except SearchProblem (List String)
  | [] => .error .noWords
  | name :: rest =>
    let path := Path.ofString name
    if path.isAbsolute then .ok (path.toString :: rest)
    else
      match s.find? name with
      | some text => .ok (text :: rest)
      | none => .error (.notFound name)

end LintRun.Command
