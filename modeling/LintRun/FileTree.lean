import LintRun.Error

/-!
# File trees

A file tree says what lies at each location: a file, a directory or a symbolic link. `walk` follows
names and links from a directory on, as opening a file does, and refuses what does not exist.
`resolve` follows them leniently: what does not exist is taken as a name. No path leads anywhere
that holds the character NUL.
-/
namespace LintRun

/-- The names on the way from the root. -/
abbrev Location := List String

/-- What lies at a location. A link leads to a text that is looked at when it is followed. -/
inductive Entry where
  | file (contents : ByteArray) (executable : Bool)
  | directory
  | link (target : String)

/-- The locations that hold something. Directories on the way to them need not be listed. -/
structure FileTree where
  entries : List (Location × Entry)

namespace FileTree

def linkLimit : Nat := 40

/-- How many bytes a name may have. -/
def nameLimit : Nat := 255

/-- How many bytes a path text may have. -/
def pathLimit : Nat := 4095

def isLongName (name : String) : Bool := nameLimit < name.utf8ByteSize

def isLongPath (s : String) : Bool := pathLimit < s.utf8ByteSize

def empty : FileTree := ⟨[]⟩

/-- What lies at a location, links not followed. -/
def entry? (t : FileTree) (l : Location) : Option Entry :=
  if l.isEmpty then some .directory
  else
    match t.entries.find? fun e => e.1 == l with
    | some (_, e) => some e
    | none => if t.entries.any fun e => l.isPrefixOf e.1 then some .directory else none

/-- Puts something at a location, in the place of what lay there. -/
def put (t : FileTree) (l : Location) (e : Entry) : FileTree :=
  ⟨t.entries.filter (fun x => x.1 != l) ++ [(l, e)]⟩

/-- Takes away what lies at a location; the directory that it lay in stays. -/
def remove (t : FileTree) (l : Location) : FileTree :=
  let rest : FileTree := ⟨t.entries.filter fun x => x.1 != l⟩
  if (rest.entry? l.dropLast).isSome then rest else rest.put l.dropLast .directory

/-- The names of a path text, single dots included; a slash at the end asks for a directory. -/
def namesOf (s : String) : List String :=
  let pieces := (Path.splitSlashes s.toList).filter (· ≠ [])
  let pieces := if s.toList.getLast? = some '/' then pieces ++ [['.']] else pieces
  pieces.map String.ofList

def isRooted (s : String) : Bool := s.toList.head? = some '/'

/-- The location and entry that names lead to from a directory on; the entry is no link. -/
def walkFrom (t : FileTree) (links : Nat) (here : Location) (names : List String) :
    Except SystemProblem (Location × Entry) :=
  match names with
  | [] => .ok (here, .directory)
  | name :: rest =>
    if name = "." then walkFrom t links here rest
    else if name = ".." then walkFrom t links here.dropLast rest
    else if isLongName name then .error .nameTooLong
    else
      match t.entry? (here ++ [name]) with
      | none => .error .noEntry
      | some .directory => walkFrom t links (here ++ [name]) rest
      | some (.file b x) =>
        if rest.isEmpty then .ok (here ++ [name], .file b x) else .error .notDirectory
      | some (.link target) =>
        match links with
        | 0 => .error .linkLoop
        | links + 1 =>
          walkFrom t links (if isRooted target then [] else here) (namesOf target ++ rest)
termination_by (links, names.length)

/-- The location and entry that a path text leads to, from a working directory. -/
def walk (t : FileTree) (cwd : Location) (s : String) : Except SystemProblem (Location × Entry) :=
  if s = "" then .error .noEntry
  else if isLongPath s then .error .nameTooLong
  else walkFrom t linkLimit (if isRooted s then [] else cwd) (namesOf s)

def linkCount (t : FileTree) : Nat := t.entries.countP fun e => e.2 matches .link _

/-- The names of nothing are kept out, and a double dot takes back the name before it. -/
def follow (here : Location) (names : List String) : Location :=
  names.foldl (fun l n =>
    if n = "" || n = "." then l else if n = ".." then l.dropLast else l ++ [n]) here

/-- A way to a location, from the root or from the working directory on. A way from the working
directory may start with double dots. Two ways may lead to the same location. -/
structure Way where
  rooted : Bool
  names : List String
  deriving DecidableEq

namespace Way

def location (cwd : Location) (w : Way) : Location := follow (if w.rooted then [] else cwd) w.names

def enter (w : Way) (name : String) : Way := { w with names := w.names ++ [name] }

def leave (w : Way) : Way :=
  if w.rooted || w.names.getLast?.any (· ≠ "..") then { w with names := w.names.dropLast }
  else w.enter ".."

/-- The pieces of a path text behind a way. A text that starts at the root is a way of its own. -/
def join (w : Way) (pieces : List String) : Way :=
  if pieces.head? = some "" && 2 ≤ pieces.length then ⟨true, pieces⟩
  else { w with names := w.names ++ pieces }

end Way

def piecesOf (s : String) : List String := (Path.splitSlashes s.toList).map String.ofList

/-- The way without links that pieces of a path text lead to; names of nothing are kept.
`following` holds the links on whose way the pieces lie, and `depth` bounds how many more there can
be. The error is the way to a link that leads back to itself, with the pieces after it. -/
def resolveFrom (t : FileTree) (cwd : Location) (depth : Nat) (following : List Way) (here : Way)
    (pieces : List String) : Except Way Way :=
  match pieces with
  | [] => .ok here
  | piece :: rest =>
    if piece = "" || piece = "." then resolveFrom t cwd depth following here rest
    else if piece = ".." then resolveFrom t cwd depth following here.leave rest
    else
      let next := here.enter piece
      match t.entry? (next.location cwd) with
      | some (.link target) =>
        match depth, following.contains next with
        | depth + 1, false =>
          match resolveFrom t cwd depth (next :: following)
              (if isRooted target then ⟨true, []⟩ else here) (piecesOf target) with
          | .ok reached => resolveFrom t cwd (depth + 1) following reached rest
          | .error stuck => .error (stuck.join rest)
        | _, _ => .error (next.join rest)
      | _ => resolveFrom t cwd depth following next rest
termination_by (depth, pieces.length)

def pathOf (l : Location) : Path := ⟨.root, l⟩

/-- The absolute path without links and double dots that a path leads to. A link that leads back to
itself is refused, unless the names after it leave it again. -/
def resolve (t : FileTree) (cwd : Location) (p : Path) : Except Error Path :=
  if p.holdsNul then .error (.ofAccess .nulCharacter)
  else
    match resolveFrom t cwd (t.linkCount * (cwd.length + 3)) [] ⟨p.isAbsolute, []⟩ p.names with
    | .ok w => .ok (pathOf (w.location cwd))
    | .error w =>
      let stuck := pathOf (w.location cwd)
      match t.walk [] stuck.toString with
      | .error .linkLoop =>
        .error (.outside .runtime ("Symlink loop from " ++ Text.quoted stuck.toString))
      | _ => .ok stuck

/-- The problems that just mean that nothing is there. -/
def isAbsence : SystemProblem → Bool
  | .noEntry | .notDirectory | .linkLoop => true
  | _ => false

def isFile (t : FileTree) (cwd : Location) (p : Path) : Except SystemError Bool :=
  if p.holdsNul then .ok false
  else
    match t.walk cwd p.toString with
    | .ok (_, .file ..) => .ok true
    | .ok _ => .ok false
    | .error e => if isAbsence e then .ok false else .error ⟨e, p.toString⟩

def read (t : FileTree) (cwd : Location) (p : Path) : Except AccessProblem ByteArray :=
  if p.holdsNul then .error .nulCharacter
  else
    match t.walk cwd p.toString with
    | .ok (_, .file b _) => .ok b
    | .ok _ => .error (.system ⟨.isDirectory, p.toString⟩)
    | .error e => .error (.system ⟨e, p.toString⟩)

def isExecutable (t : FileTree) (cwd : Location) (s : String) : Bool :=
  match t.walk cwd s with
  | .ok (_, .file _ executable) => executable
  | _ => false

/-- Makes a directory at a location, unless something lies there. -/
def makeDirectory (t : FileTree) (l : Location) : FileTree :=
  if (t.entry? l).isSome then t else t.put l .directory

/-- Writes a file that is not executable. The directory of the path must exist. -/
def write (t : FileTree) (cwd : Location) (p : Path) (b : ByteArray) :
    Except SystemError FileTree :=
  match t.walk cwd p.toString with
  | .ok (l, .file _ x) => .ok (t.put l (.file b x))
  | .ok _ => .error ⟨.isDirectory, p.toString⟩
  | .error .noEntry =>
    match t.walk cwd p.parent.toString with
    | .ok (l, .directory) => .ok (t.put (l ++ [p.name]) (.file b false))
    | .ok _ => .error ⟨.notDirectory, p.toString⟩
    | .error e => .error ⟨e, p.toString⟩
  | .error e => .error ⟨e, p.toString⟩

/-- The files below a location, each with the names from there to it. -/
def filesBelow (t : FileTree) (l : Location) : List (Location × ByteArray) :=
  t.entries.filterMap fun (k, e) =>
    match e with
    | .file b _ => if l.isPrefixOf k then some (k.drop l.length, b) else none
    | _ => none

end FileTree

end LintRun
