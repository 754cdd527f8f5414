import LintRun.Json.Lexer
import LintRun.Text.Lines

/-!
# Reading JSON

`read` runs a stack of open lists and tables over the tokens of a text. Each `Phase` says what may
come next; the first token that may not is the mistake that is reported, at its offset, or at the
end of the text if that comes too early.
-/
namespace LintRun.Json

/-- A list or table whose end has not been read. A list holds its items in reverse; a table its
entries, and the key whose value is read last. -/
inductive Frame where
  | list (done : List Value)
  | table (done : Table) (key : String)

/-- What may come next. -/
inductive Phase where
  /-- A value. -/
  | value
  /-- A value, or the end of the list just opened. -/
  | firstItem
  /-- A key, or the end of the table just opened. -/
  | firstKey
  /-- A key. -/
  | key
  /-- The colon after a key. -/
  | colon
  /-- A comma or the end of the innermost frame. -/
  | separator
  /-- Nothing: the text's value is complete. -/
  | finished (v : Value)

/-- The open frames, innermost first, and what may come next. -/
structure State where
  frames : List Frame
  phase : Phase

/-- A complete value goes into the innermost frame. -/
def State.deliver (v : Value) : List Frame → State
  | [] => ⟨[], .finished v⟩
  | .list done :: outer => ⟨.list (v :: done) :: outer, .separator⟩
  | .table done key :: outer => ⟨.table (Entries.insert key v done) key :: outer, .separator⟩

def State.setKey (key : String) : List Frame → State
  | .table done _ :: outer => ⟨.table done key :: outer, .colon⟩
  | frames => ⟨frames, .colon⟩

/-- What there is too much of when a frame is one too many. -/
def Frame.excess : Frame → Excess
  | .list _ => .lists
  | .table .. => .tables

def checkDepth (d : Dialect) (offset : Nat) (frames : List Frame) : Except Fault Unit :=
  match d.maxDepth, frames with
  | some most, frame :: _ =>
    if most < frames.length then .error ⟨.excess frame.excess, offset⟩ else .ok ()
  | _, _ => .ok ()

/-- Opens a frame. One that may turn out to hold nothing need not count yet. -/
def openFrame (d : Dialect) (offset : Nat) (frames : List Frame) (frame : Frame) (phase : Phase) :
    Except Fault State := do
  if d.countsEmpty then checkDepth d offset (frame :: frames)
  return ⟨frame :: frames, phase⟩

def stepValue (d : Dialect) (frames : List Frame) (l : Lexeme) : Except Fault State :=
  match l.token with
  | .scalar v => .ok (State.deliver v frames)
  | .longNumber digits => .error ⟨.excess (.digits digits), l.offset⟩
  | .text s => .ok (State.deliver (.text s) frames)
  | .openList => openFrame d l.offset frames (.list []) .firstItem
  | .openTable => openFrame d l.offset frames (.table [] "") .firstKey
  | .unreadable f => .error f
  | _ => .error ⟨.valueExpected, l.offset⟩

def stepKey (frames : List Frame) (l : Lexeme) : Except Fault State :=
  match l.token with
  | .text s => .ok (State.setKey s frames)
  | .unreadable f => .error f
  | _ => .error ⟨.keyExpected, l.offset⟩

/-- A token after an item or an entry. -/
def stepSeparator (frames : List Frame) (l : Lexeme) : Except Fault State :=
  match frames, l.token with
  | .list _ :: _, .comma => .ok ⟨frames, .value⟩
  | .table .. :: _, .comma => .ok ⟨frames, .key⟩
  | .list done :: outer, .closeList => .ok (State.deliver (.list done.reverse) outer)
  | .table done _ :: outer, .closeTable => .ok (State.deliver (.table done) outer)
  | _, _ => .error ⟨.commaExpected, l.offset⟩

def step (d : Dialect) (s : State) (l : Lexeme) : Except Fault State :=
  match s.phase with
  | .value => stepValue d s.frames l
  | .firstItem =>
    match l.token, s.frames with
    | .closeList, _ :: outer => .ok (State.deliver (.list []) outer)
    | _, _ => do
      checkDepth d l.offset s.frames
      stepValue d s.frames l
  | .firstKey =>
    match l.token, s.frames with
    | .closeTable, _ :: outer => .ok (State.deliver (.table []) outer)
    | _, _ => do
      checkDepth d l.offset s.frames
      stepKey s.frames l
  | .key => stepKey s.frames l
  | .colon =>
    match l.token with
    | .colon => .ok ⟨s.frames, .value⟩
    | _ => .error ⟨.colonExpected, l.offset⟩
  | .separator => stepSeparator s.frames l
  | .finished _ => .error ⟨.extraData, l.offset⟩

/-- What is missing when the text ends. -/
def Phase.atEnd (stop : Nat) : Phase → Except Fault Value
  | .value | .firstItem => .error ⟨.valueExpected, stop⟩
  | .firstKey | .key => .error ⟨.keyExpected, stop⟩
  | .colon => .error ⟨.colonExpected, stop⟩
  | .separator => .error ⟨.commaExpected, stop⟩
  | .finished v => .ok v

/-- The value that tokens spell from a state on, in a text of length `stop`. -/
def run (d : Dialect) (stop : Nat) : State → List Lexeme → Except Fault Value
  | s, [] => s.phase.atEnd stop
  | s, l :: rest =>
    match step d s l with
    | .ok next => run d stop next rest
    | .error f => .error f

def readChars (d : Dialect) (cs : List Char) : Except Fault Value :=
  if cs.head? = some '\ufeff' then .error ⟨.byteOrderMark, 0⟩
  else run d cs.length ⟨[], .value⟩ (lex d cs)

def read (d : Dialect) (s : String) : Except Fault Value := readChars d s.toList

/-- Any depth and any number of digits, and a lone surrogate is replaced. -/
def Dialect.unlimited : Dialect := ⟨none, true, none, false, true⟩

/-- Configuration files, nested at most so deep: a lone surrogate is replaced. -/
def Dialect.file (depth : Nat) : Dialect := ⟨some depth, true, some Excess.digitLimit, false, true⟩

/-- Linter payloads: no lone surrogates. -/
def Dialect.payload : Dialect := ⟨some 200, false, some Excess.digitLimit, true, false⟩

def Mistake.message : Mistake → String
  | .byteOrderMark => "Unexpected UTF-8 BOM (decode using utf-8-sig)"
  | .valueExpected => "Expecting value"
  | .keyExpected => "Expecting property name enclosed in double quotes"
  | .colonExpected => "Expecting ':' delimiter"
  | .commaExpected => "Expecting ',' delimiter"
  | .extraData => "Extra data"
  | .unterminatedString => "Unterminated string starting at"
  | .controlCharacter => "Invalid control character at"
  | .badEscape => "Invalid \\escape"
  | .badUnicodeEscape => "Invalid \\uXXXX escape"
  | .loneSurrogate => "Lone surrogate in the string starting at"
  | .excess x => x.message

/-- A fault in words, with its place in the text. -/
def Fault.message (cs : List Char) (f : Fault) : String :=
  f.mistake.message ++ ": " ++ (Text.placeOf cs f.offset).message

end LintRun.Json
