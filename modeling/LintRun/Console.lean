import LintRun.Event
import LintRun.Text.Columns
import LintRun.Text.Lines

/-!
# The console

How the lines of a log look on standard output. A line is a row of styled pieces: the name of the
program in brackets, a mark for errors or debug output, and the words. Words are printed as they
are, but for five control characters, which are dropped, and tabs, which are filled up with spaces
to the next column that is a multiple of eight. Without color all styles are plain.
-/
namespace LintRun

inductive Style where
  | plain
  | cyan
  | red
  | dim
  deriving DecidableEq, Repr

/-- A piece of a line in one style. -/
structure Span where
  style : Style
  text : String

/-- A character in a style. -/
structure Cell where
  style : Style
  char : Char
  deriving DecidableEq, Repr

namespace Cell

/-- Whether a character never reaches the output: bell, backspace, vertical tab, form feed and
carriage return. -/
def isDropped (c : Char) : Bool :=
  c == '\x07' || c == '\x08' || c == '\x0b' || c == '\x0c' || c == '\r'

def ofSpan (s : Span) : List Cell :=
  (s.text.toList.filter fun c => !isDropped c).map fun c => ⟨s.style, c⟩

def ofSpans (spans : List Span) : List Cell := spans.flatMap ofSpan

/-- The lines of a row of cells; there is always at least one. -/
def lines : List Cell → List (List Cell)
  | [] => [[]]
  | c :: rest =>
    match lines rest with
    | [] => [[c]]
    | first :: others => if c.char = '\n' then [] :: first :: others else (c :: first) :: others

def tabStop : Nat := 8

/-- How many columns are missing to the next stop. -/
def missing (columns : Nat) : Nat := (tabStop - columns % tabStop) % tabStop

/-- A line cut after each tab; there is always at least one piece. -/
def cut : List Cell → List (List Cell)
  | [] => [[]]
  | c :: rest =>
    match cut rest with
    | [] => [[c]]
    | first :: others => if c.char = '\t' then [c] :: first :: others else (c :: first) :: others

def width (cells : List Cell) : Nat := Text.width (cells.map (·.char))

/-- A piece that starts at a column, with spaces for the tab at its end: one, and more of them up
to the next stop. -/
def fill (column : Nat) (piece : List Cell) : List Cell :=
  match piece.getLast? with
  | some ⟨s, '\t'⟩ =>
    let shown := piece.dropLast ++ [⟨s, ' '⟩]
    shown ++ List.replicate (missing (column + width shown)) ⟨s, ' '⟩
  | _ => piece

/-- Pieces of a line, the first of which starts at a column, with spaces for their tabs. -/
def fillFrom (column : Nat) : List (List Cell) → List (List Cell)
  | [] => []
  | piece :: rest => fill column piece :: fillFrom (column + width (fill column piece)) rest

/-- A line with spaces for its tabs, cut after those for each. -/
def expand (line : List Cell) : List (List Cell) := fillFrom 0 (cut line)

end Cell

namespace Style

def code? : Style → Option String
  | .plain => none
  | .cyan => some "36"
  | .red => some "31"
  | .dim => some "2"

def paint (s : Style) (cs : List Char) : List Char :=
  match s.code? with
  | none => cs
  | some code => "\x1b[".toList ++ code.toList ++ 'm' :: cs ++ "\x1b[0m".toList

end Style

namespace Cell

/-- The longest runs of one style in a row of cells. -/
def runs : List Cell → List (Style × List Char)
  | [] => []
  | c :: rest =>
    match runs rest with
    | [] => [(c.style, [c.char])]
    | (s, cs) :: others =>
      if c.style = s then (s, c.char :: cs) :: others else (c.style, [c.char]) :: (s, cs) :: others

def paint (piece : List Cell) : List Char := (runs piece).flatMap fun r => r.1.paint r.2

def paintLine (line : List Cell) : List Char := (expand line).flatMap paint ++ ['\n']

end Cell

/-- What standard output is connected to. -/
inductive Output where
  | terminal
  | plain
  | absent
  | closed
  deriving DecidableEq, Repr

def Output.isTerminal (o : Output) : Bool := o = .terminal

structure Console where
  /-- The name of the program. -/
  name : String
  colors : Bool
  showsDebug : Bool

namespace Console

def defaultName : String := "lintstream"

def ofOutput (o : Output) (showsDebug : Bool) : Console := ⟨defaultName, o.isTerminal, showsDebug⟩

def style (k : Console) (s : Style) : Style := if k.colors then s else .plain

def tag (k : Console) : List Span := [⟨.plain, "["⟩, ⟨k.style .cyan, k.name⟩, ⟨.plain, "] "⟩]

/-- The pieces of a line of the log, if it is shown. -/
def spans (k : Console) : Channel → String → Option (List Span)
  | .info, words => some (k.tag ++ [⟨.plain, words⟩])
  | .error, words => some (k.tag ++ [⟨k.style .red, "error"⟩, ⟨.plain, " " ++ words⟩])
  | .raw, words => some [⟨.plain, words⟩]
  | .debug, words =>
    if k.showsDebug then some (k.tag ++ [⟨k.style .dim, "[debug] " ++ words⟩]) else none

def printSpans (spans : List Span) : List Char :=
  (Cell.lines (Cell.ofSpans spans)).flatMap Cell.paintLine

def write (k : Console) (c : Channel) (words : String) : String :=
  String.ofList (((k.spans c words).map printSpans).getD [])

/-- The lines that events put on the log, as they are printed. -/
def transcript (k : Console) (events : List Event) : String :=
  String.join (events.map fun
    | .log c words => k.write c words
    | _ => "")

end Console

end LintRun
