import LintRun.Depth
import LintRun.FileTree
import LintRun.Json.Reader
import LintRun.Options
import LintRun.Toml.Document

/-!
# Configurations

A configuration is a table in a file: JSON, or TOML if the file's name says so. Unless one
configuration is given for all files, each file has that of the nearest directory above it with a
file of the configuration's name. What a directory was found to have is remembered.
-/
namespace LintRun.Configuration

variable [Wording]

def tomlSuffix : String := ".toml"

def readJson (depth : Nat) (b : ByteArray) : Except ReadProblem Value :=
  match Text.Utf8.decode b with
  | .error f => .error (.utf8 f)
  | .ok s =>
    let cs := Text.unifyLineEnds s.toList
    match Json.readChars (.file depth) cs with
    | .ok v => .ok v
    | .error ⟨.excess x, _⟩ => .error (.excess x)
    | .error f => .error (.json (f.message cs))

def readToml (depth : Nat) (b : ByteArray) : Except ReadProblem Table :=
  match Text.Utf8.decode b with
  | .error f => .error (.utf8 f)
  | .ok s =>
    match Toml.read depth s with
    | .ok t => .ok t
    | .error (.excess x) => .error (.excess x)
    | .error .malformed => .error (.toml (Wording.toml s))

def readFile (depth : Nat) (tree : FileTree) (cwd : Location) (p : Path) :
    Except ReadProblem Value :=
  match tree.read cwd p with
  | .error problem => .error (.access problem)
  | .ok b => if p.suffix = tomlSuffix then (readToml depth b).map .table else readJson depth b

/-- The error of a configuration file whose text cannot be used. A path that no file can have, and
an excess, are not laid at the door of the configuration. -/
def unusable (p : Path) : ReadProblem → Error
  | .access .nulCharacter => .ofAccess .nulCharacter
  | .excess x => .ofExcess x
  | why => .config (.unusable p.toString why)

/-- The table in a configuration file, with values that are nested at most so deep. -/
def load (depth : Nat) (tree : FileTree) (cwd : Location) (p : Path) : Except Error Table :=
  match readFile depth tree cwd p with
  | .error why => .error (unusable p why)
  | .ok (.table t) => .ok t
  | .ok _ => .error (.config (.notTable p.toString))

/-- A directory and those above it, nearest first. -/
def upward (l : Location) : List Location :=
  (List.range (l.length + 1)).map fun i => l.take (l.length - i)

def candidate (name : String) (directory : Location) : Path :=
  (FileTree.pathOf directory).join (Path.ofString name)

/-- The configuration of the nearest of some directories that has one; without one it is empty. -/
def search (tree : FileTree) (cwd : Location) (name : String) :
    List Location → Except Error Table
  | [] => .ok []
  | d :: above =>
    let file := candidate name d
    match tree.isFile cwd file with
    | .error e => .error (.system e)
    | .ok true => load Depth.found tree cwd file
    | .ok false => search tree cwd name above

/-- What is remembered: the table of each directory looked at, and the table given for all files
once it is loaded. -/
structure Memory where
  directories : List (Location × Table)
  given : Option Table

def Memory.empty : Memory := ⟨[], none⟩

def Memory.find? (m : Memory) (d : Location) : Option Table :=
  (m.directories.find? fun e => e.1 == d).map (·.2)

/-- The configuration of the nearest of some directories, with the help of what is remembered, and
the directories that were looked at. -/
def lookUp (tree : FileTree) (cwd : Location) (name : String) (m : Memory) :
    List Location → List Location × Except Error Table
  | [] => ([], .ok [])
  | d :: above =>
    match m.find? d with
    | some t => ([], .ok t)
    | none =>
      let file := candidate name d
      match tree.isFile cwd file with
      | .error e => ([d], .error (.system e))
      | .ok true => ([d], load Depth.found tree cwd file)
      | .ok false =>
        let (visited, result) := lookUp tree cwd name m above
        (d :: visited, result)

def Memory.add (m : Memory) (visited : List Location) (t : Table) : Memory :=
  { m with directories := visited.map (fun d => (d, t)) ++ m.directories }

/-- How configurations are found: by name in the directories above a file, or one for all. -/
structure Lookup where
  filename : String
  override : Option ConfigSource

/-- An error on the way to a file's configuration: a problem of the configuration is told with the
file. -/
def unresolved (p : Path) : Error → Error
  | .config why => .resolution p.toString why.message
  | e => e

/-- The configuration for a file, and what is remembered afterwards. -/
def Lookup.resolve (k : Lookup) (tree : FileTree) (cwd : Location) (p : Path) (m : Memory) :
    Except Error Table × Memory :=
  match k.override with
  | some (.table t) => (.ok t, m)
  | some (.file f) =>
    match m.given with
    | some t => (.ok t, m)
    | none =>
      match load Depth.given tree cwd f with
      | .ok t => (.ok t, { m with given := some t })
      | .error why => (.error (unresolved p why), m)
  | none =>
    match tree.resolve cwd p with
    | .error e => (.error e, m)
    | .ok file =>
      let (visited, result) := lookUp tree cwd k.filename m (upward file.parent.names)
      match result with
      | .ok t => (.ok t, m.add visited t)
      | .error why => (.error (unresolved p why), m)

end LintRun.Configuration
