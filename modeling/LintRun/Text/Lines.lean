/-!
# Line ends and places in a text

Configuration files are read with one kind of line end: a carriage return, alone or before a line
feed, counts as a line feed. A place in a text is told as a line, a column and an offset.
-/
namespace LintRun.Text

/-- Every carriage return, with the line feed after it if there is one, becomes a line feed. -/
def unifyLineEnds : List Char → List Char
  | [] => []
  | '\r' :: '\n' :: rest => '\n' :: unifyLineEnds rest
  | '\r' :: rest => '\n' :: unifyLineEnds rest
  | c :: rest => c :: unifyLineEnds rest

/-- A place in a text: lines and columns count from one, the offset from zero. -/
structure Place where
  line : Nat
  column : Nat
  offset : Nat
  deriving DecidableEq, Repr

/-- The place of the character at an offset; columns start anew after each line feed. -/
def placeOf (cs : List Char) (offset : Nat) : Place :=
  let before := cs.take offset
  let line := before.count '\n'
  let column := (before.reverse.takeWhile (· != '\n')).length
  ⟨line + 1, column + 1 + (offset - before.length), offset⟩

def Place.message (p : Place) : String :=
  s!"line {p.line} column {p.column} (char {p.offset})"

/-- The pieces of a text between its line feeds; there is always at least one. -/
def splitLines : List Char → List (List Char)
  | [] => [[]]
  | c :: rest =>
    match splitLines rest with
    | [] => [[c]]
    | first :: others => if c = '\n' then [] :: first :: others else (c :: first) :: others

end LintRun.Text
