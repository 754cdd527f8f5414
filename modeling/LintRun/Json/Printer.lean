import LintRun.Value
import LintRun.Excess
import LintRun.Decimal.Layout

/-!
# Writing JSON

`print` writes a value as JSON in ASCII: every character outside the printable ASCII range is
escaped, one beyond U+FFFF as a pair of surrogates. JSON has no dates, so `encode?` refuses a
value that holds one, as well as integers that are too long and values that are nested too deep.
-/
namespace LintRun.Json

/-- The texts between items and between a key and its value. -/
structure Style where
  comma : String
  colon : String

/-- A blank after each comma and colon. -/
def Style.spaced : Style := ⟨", ", ": "⟩

def Style.compact : Style := ⟨",", ":"⟩

/-- A number below 65536 as four lower-case hexadecimal digits. -/
def hex4 (n : Nat) : List Char :=
  [n / 4096 % 16, n / 256 % 16, n / 16 % 16, n % 16].map Nat.digitChar

def unitEscape (n : Nat) : List Char := '\\' :: 'u' :: hex4 n

def escapeChar (c : Char) : List Char :=
  let n := c.toNat
  if c = '"' then ['\\', '"']
  else if c = '\\' then ['\\', '\\']
  else if c = '\n' then ['\\', 'n']
  else if c = '\r' then ['\\', 'r']
  else if c = '\t' then ['\\', 't']
  else if n = 8 then ['\\', 'b']
  else if n = 12 then ['\\', 'f']
  else if 32 ≤ n ∧ n ≤ 126 then [c]
  else if n < 65536 then unitEscape n
  else unitEscape (0xD800 + (n - 65536) / 1024) ++ unitEscape (0xDC00 + (n - 65536) % 1024)

def quote (s : String) : List Char := '"' :: (s.toList.flatMap escapeChar ++ ['"'])

/-- A float: infinities and not-a-number have names of their own. -/
def floatText (x : Float) : String :=
  match Decimal.parts x with
  | .nan => "NaN"
  | .infinite negative => if negative then "-Infinity" else "Infinity"
  | .finite .. => Decimal.plainText x

mutual

def chars (style : Style) : Value → List Char
  | .null => "null".toList
  | .bool true => "true".toList
  | .bool false => "false".toList
  | .int n => (toString n).toList
  | .float x => (floatText x).toList
  | .text s => quote s
  | .moment m => quote m.text
  | .list items => '[' :: (itemChars style items ++ [']'])
  | .table entries => '{' :: (entryChars style entries ++ ['}'])

/-- The characters of the items of a list, without its brackets. -/
def itemChars (style : Style) : List Value → List Char
  | [] => []
  | [v] => chars style v
  | v :: w :: rest => chars style v ++ style.comma.toList ++ itemChars style (w :: rest)

/-- The characters of the entries of a table, without its braces. -/
def entryChars (style : Style) : List (String × Value) → List Char
  | [] => []
  | [(k, v)] => quote k ++ style.colon.toList ++ chars style v
  | (k, v) :: e :: rest =>
    quote k ++ style.colon.toList ++ chars style v ++ style.comma.toList
      ++ entryChars style (e :: rest)

end

/-- A value as JSON text; a date or time is written as a string. -/
def print (style : Style) (v : Value) : String := String.ofList (chars style v)

inductive Unwritable where
  | moment (m : Moment)
  | excess (x : Excess)
  deriving DecidableEq, Repr

mutual

/-- The first part of a value that cannot be written, in reading order, when so many lists and
tables may be nested. -/
def firstUnwritable? (depth : Nat) : Value → Option Unwritable
  | .moment m => some (.moment m)
  | .int n => if Excess.isLong n then some (.excess .spelling) else none
  | .list items =>
    if depth = 0 then some (.excess .encoding) else firstUnwritableOfList? (depth - 1) items
  | .table entries =>
    if depth = 0 then some (.excess .encoding) else firstUnwritableOfTable? (depth - 1) entries
  | _ => none

/-- The first part of the items of a list that cannot be written. -/
def firstUnwritableOfList? (depth : Nat) : List Value → Option Unwritable
  | [] => none
  | v :: rest => (firstUnwritable? depth v).or (firstUnwritableOfList? depth rest)

/-- The first part of the entries of a table that cannot be written. -/
def firstUnwritableOfTable? (depth : Nat) : List (String × Value) → Option Unwritable
  | [] => none
  | (_, v) :: rest => (firstUnwritable? depth v).or (firstUnwritableOfTable? depth rest)

end

/-- A value as JSON text, or the first part of it that cannot be written. -/
def encode? (style : Style) (depth : Nat) (v : Value) : Except Unwritable String :=
  match firstUnwritable? depth v with
  | some u => .error u
  | none => .ok (print style v)

end LintRun.Json
