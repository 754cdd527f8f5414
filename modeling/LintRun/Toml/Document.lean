import LintRun.Toml.Statement

/-!
# TOML documents

`Document` puts statements together to one table. No table is defined twice: a header names a
table that has no header yet and was not made by a key of several parts before, and no key reaches
into a list or table that was written out in full.
-/
namespace LintRun.Toml

/-- The table so far, with the keys that may not be used any more. -/
structure Document where
  table : Table
  /-- The table that keys belong to now. -/
  header : Key
  /-- Tables that no header may name again. -/
  closed : List Key
  /-- Tables to be closed at the next header. -/
  closing : List Key
  /-- Lists and tables written out in full. -/
  complete : List Key

namespace Document

def empty : Document := ⟨[], [], [], [], []⟩

/-- The table with an empty table made where a key leads to, unless there is one. -/
def open? (key : Key) (t : Table) : Option Table := modifyAt some key t

/-- The table with one more empty item in the list that a key names. -/
def addItem? (key : Key) (t : Table) : Option Table :=
  match key.getLast? with
  | none => none
  | some name =>
    modifyAt (fun inner =>
      match Entries.get? name inner with
      | none => some (inner ++ [(name, .list [.table []])])
      | some (.list items) => some (Entries.insert name (.list (items ++ [.table []])) inner)
      | some _ => none) key.dropLast t

/-- Tables whose closing was put off are closed. -/
def settle (d : Document) : Document := { d with closed := d.closing ++ d.closed, closing := [] }

def table? (d : Document) (key : Key) : Option Document :=
  if d.closed.contains key || covers d.complete key then none
  else (open? key d.table).map fun t =>
    { d with table := t, header := key, closed := key :: d.closed }

/-- A header of a list item: the tables below the key start anew. -/
def item? (d : Document) (key : Key) : Option Document :=
  if covers d.complete key then none
  else (addItem? key d.table).map fun t =>
    { d with
      table := t, header := key
      closed := key :: d.closed.filter fun k => !key.isPrefixOf k
      complete := d.complete.filter fun k => !key.isPrefixOf k }

/-- The proper starts of a key below the header. -/
def between (header key : Key) : List Key :=
  (List.range (key.length - 1)).map fun i => header ++ key.take (i + 1)

/-- A value under a key of the current table. -/
def pair? (d : Document) (key : Key) (v : Value) : Option Document :=
  let ways := between d.header key
  let place := d.header ++ key
  if ways.any d.closed.contains || covers d.complete place.dropLast then none
  else (addAt? place v d.table).map fun t =>
    { d with
      table := t
      closing := ways ++ d.closing
      complete := if isCompound v then place :: d.complete else d.complete }

def add? (d : Document) : Statement → Option Document
  | .pair key v => d.pair? key v
  | .table key => d.settle.table? key
  | .item key => d.settle.item? key

def ofStatements? (ss : List Statement) : Option Document := ss.foldlM add? empty

end Document

/-- Carriage returns before line feeds are dropped. -/
def dropReturns : List Char → List Char
  | '\r' :: '\n' :: rest => '\n' :: dropReturns rest
  | c :: rest => c :: dropReturns rest
  | [] => []

/-- The table that a TOML text describes, with so much room for nested values. A mistake counts
only if the statements before it can stand together. -/
def read (room : Nat) (s : String) : Reading Table :=
  let (ss, mistake) := statements room (dropReturns s.toList)
  match Document.ofStatements? ss, mistake with
  | some d, none => .ok d.table
  | some _, some m => .error m
  | none, _ => .error .malformed

end LintRun.Toml
