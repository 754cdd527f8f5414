import LintRun.Error

/-!
# Words

The linter command is given on the command line as one text, which is cut into words at blanks.
Quotes keep blanks: nothing is special between single quotes, and between double quotes only a
backslash before a double quote or a backslash. Outside of quotes a backslash makes the next
character an ordinary one. There are no comments.
-/
namespace LintRun.CommandLine

/-- Where a reader of words stands: outside of quotes, between quotes, or after a backslash. -/
inductive Mode where
  | bare
  | single
  | double
  | escaped
  | doubleEscaped
  deriving DecidableEq, Repr

inductive WordProblem where
  | unclosedQuote
  | nothingEscaped
  deriving DecidableEq, Repr

def WordProblem.message : WordProblem → String
  | .unclosedQuote => "No closing quotation"
  | .nothingEscaped => "No escaped character"

def isGap (c : Char) : Bool := c == ' ' || c == '\t' || c == '\r' || c == '\n'

/-- The mode after a character of a word, and what the character adds to the word. -/
def step (m : Mode) (c : Char) : Mode × List Char :=
  match m with
  | .bare =>
    if c = '\'' then (.single, [])
    else if c = '"' then (.double, [])
    else if c = '\\' then (.escaped, [])
    else (.bare, [c])
  | .single => if c = '\'' then (.bare, []) else (.single, [c])
  | .double =>
    if c = '"' then (.bare, [])
    else if c = '\\' then (.doubleEscaped, [])
    else (.double, [c])
  | .escaped => (.bare, [c])
  | .doubleEscaped => (.double, if c = '"' || c = '\\' then [c] else ['\\', c])

/-- How a text may end: only outside of quotes. -/
def atEnd : Mode → Except WordProblem Unit
  | .bare => .ok ()
  | .single | .double => .error .unclosedQuote
  | .escaped | .doubleEscaped => .error .nothingEscaped

/-- The words in characters; `word` is the word that has begun, if one has. -/
def wordsFrom (m : Mode) (word : Option (List Char)) : List Char →
    Except WordProblem (List (List Char))
  | [] => (atEnd m).map fun _ => word.toList
  | c :: rest =>
    if m = .bare && isGap c then (wordsFrom .bare none rest).map (word.toList ++ ·)
    else
      let (next, added) := step m c
      wordsFrom next (some (word.getD [] ++ added)) rest

def words (s : String) : Except WordProblem (List String) :=
  (wordsFrom .bare none s.toList).map fun ws => ws.map String.ofList

def WordProblem.error (p : WordProblem) : Error := .outside .value p.message

end LintRun.CommandLine
