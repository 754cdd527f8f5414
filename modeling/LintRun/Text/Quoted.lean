import LintRun.Depth
import LintRun.Text.Printable
import LintRun.Json.Printer

/-!
# Quoted texts

Messages quote texts and values: a text stands in single quotes, or in double quotes when it holds
a single quote and no double one. The quote, the backslash and unprintable characters are escaped.
-/
namespace LintRun.Text

/-- A number as hexadecimal digits, filled up with zeros to a width. -/
def hexDigits (width n : Nat) : List Char :=
  let digits := Nat.toDigits 16 n
  List.replicate (width - digits.length) '0' ++ digits

/-- A character between the quotes. -/
def quoteChar (mark c : Char) : List Char :=
  let n := c.toNat
  if c = mark || c = '\\' then ['\\', c]
  else if c = '\n' then ['\\', 'n']
  else if c = '\r' then ['\\', 'r']
  else if c = '\t' then ['\\', 't']
  else if isPrintable c then [c]
  else if n < 256 then '\\' :: 'x' :: hexDigits 2 n
  else if n < 65536 then '\\' :: 'u' :: hexDigits 4 n
  else '\\' :: 'U' :: hexDigits 8 n

def quoteMark (cs : List Char) : Char := if cs.contains '\'' && !cs.contains '"' then '"' else '\''

def quoted (s : String) : String :=
  let mark := quoteMark s.toList
  String.ofList (mark :: (s.toList.flatMap (quoteChar mark) ++ [mark]))

example : quoted "it's" = "\"it's\"" := by decide +kernel
example : quoted "a\x00\\" = "'a\\x00\\\\'" := by decide +kernel

end LintRun.Text

namespace LintRun.Value

mutual

/-- A value as messages quote it. -/
def quoted : Value → String
  | .null => "None"
  | .bool b => if b then "True" else "False"
  | .int n => toString n
  | .float x => Decimal.plainText x
  | .text s => Text.quoted s
  | .moment m => m.text
  | .list items => "[" ++ quotedItems items ++ "]"
  | .table entries => "\x7b" ++ quotedEntries entries ++ "\x7d"

def quotedItems : List Value → String
  | [] => ""
  | [v] => quoted v
  | v :: w :: rest => quoted v ++ ", " ++ quotedItems (w :: rest)

def quotedEntries : List (String × Value) → String
  | [] => ""
  | [(k, v)] => Text.quoted k ++ ": " ++ quoted v
  | (k, v) :: e :: rest => Text.quoted k ++ ": " ++ quoted v ++ ", " ++ quotedEntries (e :: rest)

end

mutual

/-- Why a value cannot be quoted, told of the first part that cannot in reading order, when so many
values may stand inside one another. -/
def firstUnquotable? : Nat → Value → Option Excess
  | 0, _ => some .quoting
  | _ + 1, .int n => if Excess.isLong n then some .spelling else none
  | depth + 1, .list items => firstUnquotableOfList? depth items
  | depth + 1, .table entries => firstUnquotableOfTable? depth entries
  | _ + 1, _ => none

def firstUnquotableOfList? (depth : Nat) : List Value → Option Excess
  | [] => none
  | v :: rest => (firstUnquotable? depth v).or (firstUnquotableOfList? depth rest)

def firstUnquotableOfTable? (depth : Nat) : List (String × Value) → Option Excess
  | [] => none
  | (_, v) :: rest => (firstUnquotable? depth v).or (firstUnquotableOfTable? depth rest)

end

/-- A value as messages quote it, unless it is nested too deep or holds an integer that is too
long. -/
def quote? (v : Value) : Except Excess String :=
  match firstUnquotable? Depth.quoted v with
  | some x => .error x
  | none => .ok v.quoted

/-- A value as a text: a text is itself, anything else is quoted. -/
def shown? : Value → Except Excess String
  | .text s => .ok s
  | v => v.quote?

def kind : Value → String
  | .null => "NoneType"
  | .bool _ => "bool"
  | .int _ => "int"
  | .float _ => "float"
  | .text _ => "str"
  | .moment m => m.kind
  | .list _ => "list"
  | .table _ => "dict"

end LintRun.Value
