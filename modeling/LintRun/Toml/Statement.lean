import LintRun.Excess
import LintRun.Toml.Scalar

/-!
# TOML statements

A TOML text is a row of statements: a value under a key, or a header that names the table or the
new item of a list that the following keys belong to. Keys may have several parts. `statements`
reads a whole text; what the statements mean together is for `LintRun.Toml.Document`.
-/
namespace LintRun.Toml

abbrev Key := List String

/-- Changes the table that a way leads to, making tables on the way; the way enters the last item
of a list. Nothing, if the way meets another value, or the change fails. -/
def modifyAt (f : Table → Option Table) : Key → Table → Option Table
  | [], t => f t
  | k :: ks, t =>
    match Entries.get? k t with
    | none => (modifyAt f ks []).map fun inner => Entries.insert k (.table inner) t
    | some (.table inner) =>
      (modifyAt f ks inner).map fun changed => Entries.insert k (.table changed) t
    | some (.list items) =>
      match items.getLast? with
      | some (.table last) =>
        (modifyAt f ks last).map fun changed =>
          Entries.insert k (.list (items.dropLast ++ [.table changed])) t
      | _ => none
    | some _ => none

/-- Puts a value under a key that must not be there yet. -/
def add? (name : String) (v : Value) (t : Table) : Option Table :=
  if (Entries.get? name t).isSome then none else some (t ++ [(name, v)])

def addAt? (key : Key) (v : Value) (t : Table) : Option Table :=
  match key.getLast? with
  | none => none
  | some name => modifyAt (add? name v) key.dropLast t

def isCompound : Value → Bool
  | .list _ | .table _ => true
  | _ => false

/-- Whether one of the keys is a start of a key, or the key itself. -/
def covers (keys : List Key) (key : Key) : Bool := keys.any fun k => k.isPrefixOf key

/-- A table in braces as far as it is read. A list or table that is written out in it is complete:
no later pair reaches into it. -/
structure Inline where
  table : Table
  complete : List Key

namespace Inline

def empty : Inline := ⟨[], []⟩

def add? (t : Inline) (key : Key) (v : Value) : Option Inline :=
  if covers t.complete key then none
  else
    (addAt? key v t.table).map fun table =>
      ⟨table, if isCompound v then key :: t.complete else t.complete⟩

end Inline

/-- What follows blanks, line feeds and comments; a comment holds no control characters. -/
def skipFill (inComment : Bool) : List Char → Option (List Char)
  | [] => some []
  | c :: rest =>
    if inComment then
      if c = '\n' then skipFill false rest
      else if isForbidden c then none
      else skipFill true rest
    else if isGapOrLineFeed c then skipFill false rest
    else if c = '#' then skipFill true rest
    else some (c :: rest)

def skipGaps (cs : List Char) : List Char := cs.dropWhile isGap

def isBareKey (c : Char) : Bool := c.isAlphanum || c == '-' || c == '_'

def keyPart? (cs : List Char) : Option (String × List Char) :=
  let run := cs.takeWhile isBareKey
  if run.isEmpty then lineText? cs else some (String.ofList run, cs.drop run.length)

/-- A key with the blanks after it; `fuel` bounds the number of its parts. -/
def key? : Nat → List Char → Option (Key × List Char)
  | 0, _ => none
  | fuel + 1, cs => do
    let (part, rest) ← keyPart? cs
    match skipGaps rest with
    | '.' :: rest =>
      let (parts, rest) ← key? fuel (skipGaps rest)
      return (part :: parts, rest)
    | rest => return ([part], rest)

inductive Mistake where
  | malformed
  | excess (x : Excess)
  deriving DecidableEq, Repr

/-- What a text spells, or why it is not read. -/
abbrev Reading (α : Type) := Except Mistake α

/-- What is not there is malformed. -/
def orMalformed {α : Type} : Option α → Reading α
  | some a => .ok a
  | none => .error .malformed

/-- How many digits the decimal number has before its point that starts here. -/
def digitCount (cs : List Char) : Nat := (bare (whole (Decimal.takeSign cs).2)).length

/-- A plain value; an integer in base ten may have only so many digits. -/
def readPlain (cs : List Char) : Reading (Value × List Char) :=
  match plain? cs with
  | none => .error .malformed
  | some (.int n, rest) =>
    let count := digitCount cs
    if Excess.digitLimit < count then .error (.excess (.digits count)) else .ok (.int n, rest)
  | some r => .ok r

/-- The room that must be left for a list or a table in braces. Of the room in which values may be
nested, a list takes two steps, and a table in braces three. -/
def roomForParts : Nat := 4

/-- The room that must be left for a plain value. -/
def roomForPlain : Nat := 3

mutual

/-- A value; `fuel` bounds the number of its parts, and `room` is what is left for nesting. -/
def readValue (room : Nat) : Nat → List Char → Reading (Value × List Char)
  | 0, _ => .error .malformed
  | fuel + 1, cs =>
    match cs with
    | '[' :: rest =>
      if room < roomForParts then .error (.excess .values)
      else do
        let rest ← orMalformed (skipFill false rest)
        let (items, rest) ← readItems (room - 2) fuel rest
        return (.list items, rest)
    | '{' :: rest =>
      if room < roomForParts then .error (.excess .values)
      else
        match skipGaps rest with
        | '}' :: rest => .ok (.table [], rest)
        | rest => do
          let (t, rest) ← readPairs (room - 3) fuel .empty rest
          return (.table t.table, rest)
    | _ => if room < roomForPlain then .error (.excess .values) else readPlain cs

/-- The items of a list up to its bracket; a comma may stand before it. -/
def readItems (room : Nat) : Nat → List Char → Reading (List Value × List Char)
  | 0, _ => .error .malformed
  | fuel + 1, cs =>
    match cs with
    | ']' :: rest => .ok ([], rest)
    | _ => do
      let (v, rest) ← readValue room fuel cs
      let rest ← orMalformed (skipFill false rest)
      match rest with
      | ']' :: rest => return ([v], rest)
      | ',' :: rest =>
        let rest ← orMalformed (skipFill false rest)
        let (vs, rest) ← readItems room fuel rest
        return (v :: vs, rest)
      | _ => .error .malformed

/-- The pairs of a table in braces up to its brace; no comma may stand before it. Each pair joins
those before it as soon as it is read. -/
def readPairs (room : Nat) : Nat → Inline → List Char → Reading (Inline × List Char)
  | 0, _, _ => .error .malformed
  | fuel + 1, t, cs => do
    let ((key, v), rest) ← readPair room fuel cs
    let t ← orMalformed (t.add? key v)
    match skipGaps rest with
    | '}' :: rest => return (t, rest)
    | ',' :: rest => readPairs room fuel t (skipGaps rest)
    | _ => .error .malformed

def readPair (room : Nat) : Nat → List Char → Reading ((Key × Value) × List Char)
  | 0, _ => .error .malformed
  | fuel + 1, cs => do
    let (k, rest) ← orMalformed (key? fuel cs)
    let rest ← orMalformed (after? ['='] rest)
    let (v, rest) ← readValue room fuel (skipGaps rest)
    return ((k, v), rest)

end

inductive Statement where
  | pair (key : Key) (v : Value)
  | table (key : Key)
  | item (key : Key)

def header? (fuel : Nat) (closing : List Char) (cs : List Char) : Option (Key × List Char) := do
  let (k, rest) ← key? fuel (skipGaps cs)
  let rest ← after? closing rest
  return (k, rest)

/-- What follows the end of a line; before it only blanks and a comment may stand. -/
def endLine? (cs : List Char) : Option (List Char) :=
  let cs := skipGaps cs
  let rest := if cs.head? = some '#' then cs.dropWhile (· != '\n') else cs
  let comment := if cs.head? = some '#' then (cs.drop 1).takeWhile (· != '\n') else []
  if comment.any isForbidden then none
  else
    match rest with
    | [] => some []
    | c :: rest => if c = '\n' then some rest else none

def readStatement (room fuel : Nat) (cs : List Char) : Reading (Statement × List Char) :=
  match cs with
  | '[' :: '[' :: rest =>
    orMalformed ((header? fuel [']', ']'] rest).map fun (k, r) => (.item k, r))
  | '[' :: rest => orMalformed ((header? fuel [']'] rest).map fun (k, r) => (.table k, r))
  | _ => (readPair room fuel cs).map fun ((k, v), r) => (.pair k v, r)

/-- The statements of a text up to the first mistake, if there is one; `fuel` bounds the number of
its lines. -/
def statementsFrom (room size : Nat) : Nat → List Char → List Statement × Option Mistake
  | 0, _ => ([], some .malformed)
  | fuel + 1, cs =>
    match skipGaps cs with
    | [] => ([], none)
    | '\n' :: rest => statementsFrom room size fuel rest
    | '#' :: rest =>
      match endLine? ('#' :: rest) with
      | some rest => statementsFrom room size fuel rest
      | none => ([], some .malformed)
    | cs =>
      match readStatement room size cs with
      | .error m => ([], some m)
      | .ok (s, rest) =>
        match endLine? rest with
        | none => ([s], some .malformed)
        | some rest =>
          let (ss, m) := statementsFrom room size fuel rest
          (s :: ss, m)

def statements (room : Nat) (cs : List Char) : List Statement × Option Mistake :=
  let size := 2 * cs.length + 4
  statementsFrom room size size cs

end LintRun.Toml
