import LintRun.Value
import LintRun.Decimal.Reading
import LintRun.Excess

/-!
# The tokens of JSON text

`lex` cuts a text into tokens, each with its offset. Whether a token is in its place is not
decided here: a string that cannot be read, and a character that starts no token, become tokens
too, and end the list. Blanks between tokens are space, tab, line feed and carriage return.
-/
namespace LintRun.Json

open LintRun.Decimal (isDigit natOfDigits takeSign Numeral)

inductive Mistake where
  | byteOrderMark
  | valueExpected
  | keyExpected
  | colonExpected
  | commaExpected
  | extraData
  | unterminatedString
  | controlCharacter
  | badEscape
  | badUnicodeEscape
  | loneSurrogate
  | excess (x : Excess)
  deriving DecidableEq, Repr

/-- A mistake and the offset that it is reported at. -/
structure Fault where
  mistake : Mistake
  offset : Nat
  deriving DecidableEq, Repr

/-- A token; `text` is a string, `scalar` a number or one of the named values. -/
inductive Token where
  | openList
  | closeList
  | openTable
  | closeTable
  | colon
  | comma
  | scalar (v : Value)
  /-- A number with more digits than are read. -/
  | longNumber (digits : Nat)
  | text (s : String)
  | unreadable (f : Fault)
  | unknown

/-- A token and the offset of its first character. -/
structure Lexeme where
  offset : Nat
  token : Token

/-- What is tolerated. -/
structure Dialect where
  /-- How deep lists and tables may be nested. -/
  maxDepth : Option Nat
  /-- A list or table that holds nothing counts as a level of its own. -/
  countsEmpty : Bool
  /-- How many digits an integer may have. -/
  maxDigits : Option Nat
  /-- The whole part of a float may have no more digits than an integer. -/
  limitsWholeParts : Bool
  /-- An escaped surrogate without its partner stands for U+FFFD. -/
  allowsLoneSurrogates : Bool

def isGap (c : Char) : Bool := c == ' ' || c == '\t' || c == '\n' || c == '\r'

/-- A piece of a string: a character, or a code unit written as an escape. -/
inductive Piece where
  | char (c : Char)
  | unit (n : Nat)
  deriving DecidableEq, Repr

def shortEscape? (c : Char) : Option Char :=
  match c with
  | '"' => some '"'
  | '\\' => some '\\'
  | '/' => some '/'
  | 'b' => some '\x08'
  | 'f' => some '\x0c'
  | 'n' => some '\n'
  | 'r' => some '\r'
  | 't' => some '\t'
  | _ => none

def hexDigit? (c : Char) : Option Nat :=
  if isDigit c then some (c.toNat - '0'.toNat)
  else if 'a' ≤ c && c ≤ 'f' then some (c.toNat - 'a'.toNat + 10)
  else if 'A' ≤ c && c ≤ 'F' then some (c.toNat - 'A'.toNat + 10)
  else none

def hexNumber? (cs : List Char) : Option Nat :=
  cs.foldlM (fun n c => (hexDigit? c).map (n * 16 + ·)) 0

/-- The pieces of a string up to its closing quote, with the offset behind that quote. A string
starts at `start`; the characters to read start at the second argument. -/
def scanText (start : Nat) : Nat → List Char → Except Fault (List Piece × Nat)
  | _, [] => .error ⟨.unterminatedString, start⟩
  | i, '\\' :: 'u' :: a :: b :: c :: d :: rest =>
    match hexNumber? [a, b, c, d], rest with
    | some n, _ :: _ => (scanText start (i + 6) rest).map fun (ps, j) => (.unit n :: ps, j)
    | _, _ => .error ⟨.badUnicodeEscape, i + 1⟩
  | i, '\\' :: e :: rest =>
    if e = 'u' then .error ⟨.badUnicodeEscape, i + 1⟩
    else
      match shortEscape? e with
      | some c => (scanText start (i + 2) rest).map fun (ps, j) => (.char c :: ps, j)
      | none => .error ⟨.badEscape, i⟩
  | i, c :: rest =>
    if c = '"' then .ok ([], i + 1)
    else if c = '\\' then .error ⟨.unterminatedString, start⟩
    else if c.toNat < 32 then .error ⟨.controlCharacter, i⟩
    else (scanText start (i + 1) rest).map fun (ps, j) => (.char c :: ps, j)

def isHighSurrogate (n : Nat) : Bool := 0xD800 ≤ n && n < 0xDC00

def isLowSurrogate (n : Nat) : Bool := 0xDC00 ≤ n && n < 0xE000

def joinSurrogates (high low : Nat) : Char :=
  Char.ofNat (0x10000 + (high - 0xD800) * 1024 + (low - 0xDC00))

/-- A code unit on its own: a surrogate is no character. -/
def lone? (allowed : Bool) (n : Nat) : Option Char :=
  if 0xD800 ≤ n && n < 0xE000 then (if allowed then some '\ufffd' else none)
  else some (Char.ofNat n)

/-- The characters that pieces stand for; a surrogate pair is one character. -/
def joinPieces (allowed : Bool) : List Piece → Option (List Char)
  | [] => some []
  | .char c :: rest => (joinPieces allowed rest).map (c :: ·)
  | .unit n :: .unit m :: rest =>
    if isHighSurrogate n && isLowSurrogate m then
      (joinPieces allowed rest).map (joinSurrogates n m :: ·)
    else
      match lone? allowed n with
      | some c => (joinPieces allowed (.unit m :: rest)).map (c :: ·)
      | none => none
  | .unit n :: rest =>
    match lone? allowed n with
    | some c => (joinPieces allowed rest).map (c :: ·)
    | none => none

/-- The string that starts with the quote at offset `start`, and its length with both quotes. -/
def readText (d : Dialect) (start : Nat) (cs : List Char) : Token × Nat :=
  match scanText start (start + 1) cs with
  | .error f => (.unreadable f, 1)
  | .ok (pieces, stop) =>
    match joinPieces d.allowsLoneSurrogates pieces with
    | some text => (.text (String.ofList text), stop - start)
    | none => (.unreadable ⟨.loneSurrogate, start⟩, 1)

/-- The digits of a whole part: a zero stands alone. -/
def wholeDigits (cs : List Char) : List Char :=
  match cs.takeWhile isDigit with
  | '0' :: _ => ['0']
  | ds => ds

/-- The digits of a fraction that starts here, without its point. -/
def fractionDigits : List Char → List Char
  | '.' :: cs => cs.takeWhile isDigit
  | _ => []

/-- An exponent that starts here: its value, and its length with the letter; no digits, no
exponent. -/
def exponentPart : List Char → Int × Nat
  | e :: cs =>
    if e = 'e' || e = 'E' then
      let (negative, body) := takeSign cs
      let digits := body.takeWhile isDigit
      let size : Int := natOfDigits digits
      if digits.isEmpty then (0, 0)
      else (if negative then -size else size, 1 + (cs.length - body.length) + digits.length)
    else (0, 0)
  | [] => (0, 0)

/-- Whether a number whose whole part has so many digits is not read for them. -/
def Dialect.findsLong (d : Dialect) (isFloat : Bool) (digits : Nat) : Bool :=
  (d.limitsWholeParts || !isFloat) && d.maxDigits.any (· < digits)

/-- The longest number that starts here, and its length. With a fraction or an exponent it is a
float, else an integer. -/
def readNumber? (d : Dialect) (cs : List Char) : Option (Token × Nat) :=
  let negative := cs.head? == some '-'
  let body := if negative then cs.tail else cs
  let sign := if negative then 1 else 0
  let whole := wholeDigits body
  if whole.isEmpty then none
  else
    let fraction := fractionDigits (body.drop whole.length)
    let point := if fraction.isEmpty then 0 else fraction.length + 1
    let (exponent, width) := exponentPart (body.drop (whole.length + point))
    let length := sign + whole.length + point + width
    let isFloat := point != 0 || width != 0
    if d.findsLong isFloat whole.length then some (.longNumber whole.length, length)
    else if isFloat then
      some (.scalar (.float (Numeral.mk negative whole fraction exponent).toFloat), length)
    else
      let n : Int := natOfDigits whole
      some (.scalar (.int (if negative then -n else n)), length)

/-- The values that are written as words. -/
def words : List (String × Value) :=
  [("null", .null), ("true", .bool true), ("false", .bool false),
   ("NaN", .float Decimal.notANumber), ("Infinity", .float (Decimal.infinity false)),
   ("-Infinity", .float (Decimal.infinity true))]

def readWord? (cs : List Char) : Option (Token × Nat) :=
  words.findSome? fun (w, v) =>
    if w.toList.isPrefixOf cs then some (.scalar v, w.length) else none

def readToken (d : Dialect) (offset : Nat) (c : Char) (rest : List Char) : Token × Nat :=
  match c with
  | '[' => (.openList, 1)
  | ']' => (.closeList, 1)
  | '{' => (.openTable, 1)
  | '}' => (.closeTable, 1)
  | ':' => (.colon, 1)
  | ',' => (.comma, 1)
  | '"' => readText d offset rest
  | _ => ((readWord? (c :: rest)).or (readNumber? d (c :: rest))).getD (.unknown, 1)

/-- A token after which nothing is read. -/
def Token.isLast : Token → Bool
  | .unreadable _ | .unknown => true
  | _ => false

/-- The tokens from `offset` on; `skip` counts characters that the last token has taken. -/
def lexFrom (d : Dialect) (offset : Nat) : Nat → List Char → List Lexeme
  | _, [] => []
  | skip + 1, _ :: rest => lexFrom d (offset + 1) skip rest
  | 0, c :: rest =>
    if isGap c then lexFrom d (offset + 1) 0 rest
    else
      let (token, length) := readToken d offset c rest
      ⟨offset, token⟩ :: (if token.isLast then [] else lexFrom d (offset + 1) (length - 1) rest)

def lex (d : Dialect) (cs : List Char) : List Lexeme := lexFrom d 0 0 cs

end LintRun.Json
