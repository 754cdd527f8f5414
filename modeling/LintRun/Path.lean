/-!
# Paths

A path is an anchor and the names below it. Empty names and single dots are not kept, two dots
are: what they lead to depends on the files. Reading and printing a path brings it to that form.
-/
namespace LintRun

/-- Where a path starts. Exactly two leading slashes are an anchor of their own. -/
inductive Anchor where
  | relative
  | root
  | doubleRoot
  deriving DecidableEq, Repr

structure Path where
  anchor : Anchor
  names : List String
  deriving DecidableEq, Repr

namespace Path

/-- The pieces of characters between slashes; there is always at least one. -/
def splitSlashes : List Char → List (List Char)
  | [] => [[]]
  | c :: rest =>
    match splitSlashes rest with
    | [] => [[c]]
    | first :: others => if c = '/' then [] :: first :: others else (c :: first) :: others

def namesOf (cs : List Char) : List String :=
  ((splitSlashes cs).filter fun n => n ≠ [] ∧ n ≠ ['.']).map String.ofList

/-- The anchor that a number of leading slashes stands for. -/
def anchorOf (slashes : Nat) : Anchor :=
  match slashes with
  | 0 => .relative
  | 2 => .doubleRoot
  | _ => .root

def ofString (s : String) : Path :=
  ⟨anchorOf (s.toList.takeWhile (· == '/')).length, namesOf s.toList⟩

def anchorText : Anchor → String
  | .relative => ""
  | .root => "/"
  | .doubleRoot => "//"

/-- A path as text; the empty path is a dot. -/
def toString (p : Path) : String :=
  if p.anchor = .relative && p.names.isEmpty then "."
  else anchorText p.anchor ++ String.intercalate "/" p.names

def isAbsolute (p : Path) : Bool := p.anchor ≠ .relative

/-- Whether a path holds the character NUL, which no name of a file has. -/
def holdsNul (p : Path) : Bool := p.names.any fun name => name.toList.contains '\x00'

def name (p : Path) : String := p.names.getLast?.getD ""

def parent (p : Path) : Path := ⟨p.anchor, p.names.dropLast⟩

/-- A path seen from a directory; an absolute path stands for itself. -/
def join (directory p : Path) : Path :=
  if p.isAbsolute then p else ⟨directory.anchor, directory.names ++ p.names⟩

/-- The end of the last name from its last dot on; a dot at either end of the name counts not. -/
def suffix (p : Path) : String :=
  let cs := p.name.toList
  let tail := cs.reverse.takeWhile (· != '.')
  if tail.isEmpty || cs.length ≤ tail.length + 1 then "" else String.ofList ('.' :: tail.reverse)

end Path

end LintRun
