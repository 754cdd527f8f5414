import LintRun.Value
import LintRun.Decimal.Reading
import LintRun.Json.Lexer

/-!
# The plain values of TOML

Texts, numbers, dates and times, truth values. Each reader takes the characters from its value on
and gives the value with what follows it, or nothing if there is no such value.
-/
namespace LintRun.Toml

open LintRun.Decimal (isDigit digitValue natOfDigits)
open LintRun.Json (hexDigit? hexNumber?)

def isGap (c : Char) : Bool := c == ' ' || c == '\t'

def isGapOrLineFeed (c : Char) : Bool := isGap c || c == '\n'

/-- Control characters other than the tab; they stand in no text and no comment. -/
def isForbidden (c : Char) : Bool := (c.toNat < 32 && c != '\t') || c.toNat == 127

/-- The same in a text over several lines. -/
def isForbiddenInLines (c : Char) : Bool := isForbidden c && c != '\n'

def after? : List Char → List Char → Option (List Char)
  | [], cs => some cs
  | _ :: _, [] => none
  | x :: xs, c :: cs => if x = c then after? xs cs else none

/-- The character with a code point, unless it is a surrogate or out of range. -/
def scalar? (n : Nat) : Option Char := if n.isValidChar then some (Char.ofNat n) else none

/-- A character written with a number of hexadecimal digits, and that number. -/
def hexEscape? (count : Nat) (cs : List Char) : Option (Option Char × Nat) := do
  let digits := cs.take count
  if digits.length < count then none
  else
    let c ← (hexNumber? digits).bind scalar?
    return (some c, count + 1)

/-- What the characters after a backslash stand for, and how many they are. In a text over several
lines a backslash at the end of a line hides all blanks and line feeds up to the next character. -/
def escape? (lines : Bool) (cs : List Char) : Option (Option Char × Nat) :=
  match cs with
  | [] => none
  | c :: rest =>
    if lines && isGapOrLineFeed c then
      match cs.dropWhile isGap with
      | [] => some (none, cs.length)
      | d :: _ => if d = '\n' then some (none, (cs.takeWhile isGapOrLineFeed).length) else none
    else
      match c with
      | 'u' => hexEscape? 4 rest
      | 'U' => hexEscape? 8 rest
      | 'b' => some (some '\x08', 1)
      | 't' => some (some '\t', 1)
      | 'n' => some (some '\n', 1)
      | 'f' => some (some '\x0c', 1)
      | 'r' => some (some '\r', 1)
      | '"' => some (some '"', 1)
      | '\\' => some (some '\\', 1)
      | _ => none

/-- A text with escapes, up to its closing mark: one quote, or three if it spans lines. `skip`
counts characters that belong to the last escape. -/
def basicFrom (lines : Bool) : Nat → List Char → Option (List Char × List Char)
  | _, [] => none
  | skip + 1, _ :: rest => basicFrom lines skip rest
  | 0, c :: rest =>
    if c = '"' then
      if !lines then some ([], rest)
      else
        match after? ['"', '"'] rest with
        | some rest => some ([], rest)
        | none => (basicFrom lines 0 rest).map fun (cs, r) => (c :: cs, r)
    else if c = '\\' then
      match escape? lines rest with
      | none => none
      | some (produced, length) =>
        (basicFrom lines length rest).map fun (cs, r) => (produced.toList ++ cs, r)
    else if (if lines then isForbiddenInLines c else isForbidden c) then none
    else (basicFrom lines 0 rest).map fun (cs, r) => (c :: cs, r)

/-- A text without escapes, up to its closing mark. -/
def literalFrom (lines : Bool) : List Char → Option (List Char × List Char)
  | [] => none
  | c :: rest =>
    match after? (if lines then ['\'', '\'', '\''] else ['\'']) (c :: rest) with
    | some rest => some ([], rest)
    | none =>
      if (if lines then isForbiddenInLines c else isForbidden c) then none
      else (literalFrom lines rest).map fun (cs, r) => (c :: cs, r)

/-- Up to two more quotes right behind the closing mark of a text over lines belong to it. -/
def withExtraQuotes (mark : Char) : Option (List Char × List Char) → Option (List Char × List Char)
  | none => none
  | some (cs, rest) =>
    let extra := (rest.take 2).takeWhile (· == mark)
    some (cs ++ extra, rest.drop extra.length)

/-- A line feed right behind the opening mark of a text over lines does not belong to it. -/
def dropFirstLineFeed : List Char → List Char
  | '\n' :: cs => cs
  | cs => cs

def lineText? : List Char → Option (String × List Char)
  | '"' :: rest => (basicFrom false 0 rest).map fun (cs, r) => (String.ofList cs, r)
  | '\'' :: rest => (literalFrom false rest).map fun (cs, r) => (String.ofList cs, r)
  | _ => none

/-- A text in any of the four forms. -/
def text? (cs : List Char) : Option (String × List Char) :=
  match after? ['"', '"', '"'] cs with
  | some rest =>
    (withExtraQuotes '"' (basicFrom true 0 (dropFirstLineFeed rest))).map fun (cs, r) =>
      (String.ofList cs, r)
  | none =>
    match after? ['\'', '\'', '\''] cs with
    | some rest =>
      (withExtraQuotes '\'' (literalFrom true (dropFirstLineFeed rest))).map fun (cs, r) =>
        (String.ofList cs, r)
    | none => lineText? cs

/-- Digits with single low lines between them, after a first digit. -/
def moreDigits (isOne : Char → Bool) : List Char → List Char
  | '_' :: d :: rest => if isOne d then '_' :: d :: moreDigits isOne rest else []
  | d :: rest => if isOne d then d :: moreDigits isOne rest else []
  | [] => []

/-- Digits with single low lines between them. -/
def digitRun (isOne : Char → Bool) : List Char → List Char
  | d :: rest => if isOne d then d :: moreDigits isOne rest else []
  | [] => []

def bare (cs : List Char) : List Char := cs.filter (· != '_')

/-- An integer in another base than ten. -/
def basedInteger? (mark : Char) (base : Nat) (cs : List Char) : Option (Value × List Char) := do
  let rest ← after? ['0', mark] cs
  let isOne c := (hexDigit? c).any (· < base)
  let run := digitRun isOne rest
  if run.isEmpty then none
  else
    let n := (bare run).foldl (fun n c => n * base + (hexDigit? c).getD 0) 0
    return (.int n, rest.drop run.length)

def fraction : List Char → List Char
  | '.' :: rest =>
    match digitRun isDigit rest with
    | [] => []
    | run => '.' :: run
  | _ => []

/-- An exponent with its letter and sign: its value and its length. -/
def exponent (cs : List Char) : Int × Nat :=
  match cs with
  | e :: rest =>
    let (negative, body) := Decimal.takeSign rest
    let run := digitRun isDigit body
    if (e = 'e' || e = 'E') && !run.isEmpty then
      let size : Int := natOfDigits (bare run)
      (if negative then -size else size, 1 + (rest.length - body.length) + run.length)
    else (0, 0)
  | [] => (0, 0)

/-- The whole part of a decimal number: a zero, or digits that do not start with one. -/
def whole : List Char → List Char
  | '0' :: _ => ['0']
  | cs => digitRun isDigit cs

/-- A decimal number; with a fraction or an exponent it is a float. -/
def decimal? (cs : List Char) : Option (Value × List Char) :=
  let (negative, body) := Decimal.takeSign cs
  let digits := whole body
  if digits.isEmpty then none
  else
    let point := fraction (body.drop digits.length)
    let (e, width) := exponent (body.drop (digits.length + point.length))
    let rest := body.drop (digits.length + point.length + width)
    if point.isEmpty && width == 0 then
      let n : Int := natOfDigits (bare digits)
      some (.int (if negative then -n else n), rest)
    else
      let numeral : Decimal.Numeral := ⟨negative, bare digits, bare (point.drop 1), e⟩
      some (.float numeral.toFloat, rest)

/-- Infinity and not-a-number, with or without a sign. -/
def namedFloat? (cs : List Char) : Option (Value × List Char) :=
  let (negative, body) := Decimal.takeSign cs
  match after? ['i', 'n', 'f'] body with
  | some rest => some (.float (Decimal.infinity negative), rest)
  | none =>
    (after? ['n', 'a', 'n'] body).map fun rest => (.float Decimal.notANumber, rest)

/-- A number of a fixed count of digits, between two bounds. -/
def fixed? (count low high : Nat) (cs : List Char) : Option (Nat × List Char) :=
  let digits := cs.take count
  let n := natOfDigits digits
  if digits.length == count && digits.all isDigit && low ≤ n && n ≤ high then
    some (n, cs.drop count)
  else none

/-- The fraction of a second in microseconds; further digits are cut off. -/
def microseconds (cs : List Char) : Nat × List Char :=
  match cs with
  | '.' :: rest =>
    let digits := rest.takeWhile isDigit
    if digits.isEmpty then (0, cs)
    else
      let kept := digits.take 6
      (natOfDigits kept * Nat.pow 10 (6 - kept.length), rest.drop digits.length)
  | _ => (0, cs)

def clock? (cs : List Char) : Option (Clock × List Char) := do
  let (hour, cs) ← fixed? 2 0 23 cs
  let cs ← after? [':'] cs
  let (minute, cs) ← fixed? 2 0 59 cs
  let cs ← after? [':'] cs
  let (second, cs) ← fixed? 2 0 59 cs
  let (micro, cs) := microseconds cs
  return (⟨hour, minute, second, micro⟩, cs)

/-- Digits laid out as a date; the day may be one that its month does not have. -/
def date? (cs : List Char) : Option (Date × List Char) := do
  let (year, cs) ← fixed? 4 0 9999 cs
  let cs ← after? ['-'] cs
  let (month, cs) ← fixed? 2 1 12 cs
  let cs ← after? ['-'] cs
  let (day, cs) ← fixed? 2 1 31 cs
  return (⟨year, month, day⟩, cs)

def offset? (cs : List Char) : Option (Int × List Char) :=
  match cs with
  | 'Z' :: rest | 'z' :: rest => some (0, rest)
  | c :: rest =>
    if c = '+' || c = '-' then do
      let (hours, rest) ← fixed? 2 0 23 rest
      let rest ← after? [':'] rest
      let (minutes, rest) ← fixed? 2 0 59 rest
      let size : Int := hours * 60 + minutes
      return (if c = '-' then -size else size, rest)
    else none
  | [] => none

/-- What follows a date: a time, with or without an offset, or nothing. -/
def stamp (d : Date) (cs : List Char) : Moment × List Char :=
  match cs with
  | c :: rest =>
    if c = 'T' || c = 't' || c = ' ' then
      match clock? rest with
      | none => (.date d, cs)
      | some (t, rest) =>
        match offset? rest with
        | none => (.stamp d t none, rest)
        | some (minutes, rest) => (.stamp d t (some minutes), rest)
    else (.date d, cs)
  | [] => (.date d, cs)

def truth? (cs : List Char) : Option (Value × List Char) :=
  match after? ['t', 'r', 'u', 'e'] cs with
  | some rest => some (.bool true, rest)
  | none => (after? ['f', 'a', 'l', 's', 'e'] cs).map fun rest => (.bool false, rest)

def number? (cs : List Char) : Option (Value × List Char) :=
  (basedInteger? 'x' 16 cs).or <| (basedInteger? 'b' 2 cs).or <| (basedInteger? 'o' 8 cs).or <|
    (decimal? cs).or (namedFloat? cs)

/-- A plain value. What is laid out as a date must be one. -/
def plain? (cs : List Char) : Option (Value × List Char) :=
  match cs.head? with
  | some '"' | some '\'' => (text? cs).map fun (s, rest) => (.text s, rest)
  | _ =>
    match truth? cs with
    | some r => some r
    | none =>
      match date? cs with
      | some (d, rest) =>
        if d.isValid then
          let (m, rest) := stamp d rest
          some (.moment m, rest)
        else none
      | none =>
        match clock? cs with
        | some (t, rest) => some (.moment (.clock t), rest)
        | none => number? cs

end LintRun.Toml
