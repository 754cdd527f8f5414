import LintRun.Event

/-!
# Linting

The first stage of a run finds out the configuration for each record, asks the engine, and hands
the record on with the payload, one record at a time. A record without contents passes as it is; a
stream stops the stage. A record whose configuration cannot be found out goes to the error handler
if there is one, and else stops the stage. A limit on time holds for each of the two phases.
-/
namespace LintRun

/-- What finds out the configuration for a file. -/
abbrev Resolver (σ : Type) := Path → σ → Call Table × σ

/-- What gets a record whose configuration cannot be found out, with the error. It may end with an
error of its own. -/
abbrev ErrorHandler (σ : Type) := Record → Error → σ → Option Error × σ

/-- The stage that lints; `σ` is the state of the parts supplied from outside. -/
structure Linter (σ : Type) where
  resolver : Resolver σ
  engine : Engine σ
  rulesDirectory : Option Path
  limit : Option Float
  handler : Option (ErrorHandler σ)

/-- How a call ends under a limit: it must not take longer, and must not report a timeout of its
own. -/
def Call.within {α : Type} (limit : Option Float) (path : Path) (phase : String) (c : Call α) :
    Except Error α :=
  match limit with
  | none => c.ending
  | some t =>
    if t < c.seconds then .error (.overtime path.toString phase t)
    else
      match c.ending with
      | .error (.outside .timeout _) => .error (.overtime path.toString phase t)
      | ending => ending

/-- What becomes of an error while the configuration for a file is found out: any ordinary error
but a timeout is told with the file. -/
def Error.ofResolver (path : Path) : Error → Error
  | .resolution p cause => .resolution p cause
  | .overtime p phase t => .overtime p phase t
  | .cancelled words => .cancelled words
  | e => .resolution path.toString e.message

inductive Fate where
  | emitted (r : Record)
  | dropped
  | failed (e : Error)

/-- What the stage does for one record: events, the state after them, and the record's fate. -/
structure Visit (σ : Type) where
  events : List Event
  state : σ
  fate : Fate

/-- What a stage does for all records: events, the records as they are afterwards, the state, and
the error that stopped it, if any. -/
structure Course (σ : Type) where
  events : List Event
  records : List Record
  state : σ
  error : Option Error

namespace Linter

variable {σ : Type}

/-- The notice that a cancelled record was left alone. -/
def abandoned (r : Record) : Event :=
  .log .info s!"Lint of {r.relative} abandoned; the engine was not notified."

/-- An error stops the stage; a cancellation is noted first. -/
def fail (r : Record) (events : List Event) (s : σ) (e : Error) : Visit σ :=
  match e with
  | .cancelled _ => ⟨events ++ [abandoned r], s, .failed e⟩
  | _ => ⟨events, s, .failed e⟩

def resolve (l : Linter σ) (r : Record) (s : σ) : Except Error Table × σ :=
  let (c, s) := l.resolver r.path s
  (match c.within l.limit r.path "Config resolution" with
    | .ok t => .ok t
    | .error e => .error (e.ofResolver r.path), s)

/-- A record whose configuration cannot be found out. -/
def refuse (l : Linter σ) (r : Record) (events : List Event) (s : σ) (e : Error) : Visit σ :=
  match l.handler, e with
  | some handle, .resolution .. =>
    let events := events ++ [.refuse r e]
    match handle r e s with
    | (none, s) => ⟨events, s, .dropped⟩
    | (some e, s) => fail r events s e
  | _, _ => fail r events s e

/-- Asks the engine about a record whose configuration is known. -/
def ask (l : Linter σ) (r : Record) (events : List Event) (s : σ) (configuration : Table)
    (text : String) : Visit σ :=
  let request : Request := ⟨r.relative, text, configuration, l.rulesDirectory⟩
  let (c, s) := l.engine.run request s
  let events := events ++ (l.engine.calls request).map .request
  match c.within l.limit r.path "Linting" with
  | .error e => fail r events s e
  | .ok p =>
    ⟨events ++ [.log .debug s!"linted path={r.relative}"], s, .emitted { r with lint := some p }⟩

def lint (l : Linter σ) (r : Record) (s : σ) : Visit σ :=
  let (configuration, s) := l.resolve r s
  let events := [.resolve r.path]
  match configuration with
  | .error e => l.refuse r events s e
  | .ok configuration =>
    match r.text with
    | .error e => fail r events s e
    | .ok text => l.ask r events s configuration text

def handle (l : Linter σ) (r : Record) (s : σ) : Visit σ :=
  if r.isNull then
    ⟨[.log .debug s!"skip path={r.relative} reason=no-content"], s, .emitted r⟩
  else if r.isStream then ⟨[], s, .failed (.unsupported "Streaming not supported")⟩
  else l.lint r s

/-- All records in order; an error stops the stage at its record. -/
def process (l : Linter σ) (s : σ) : List Record → Course σ
  | [] => ⟨[], [], s, none⟩
  | r :: rest =>
    let now := l.handle r s
    match now.fate with
    | .failed e => ⟨now.events, r :: rest, now.state, some e⟩
    | .dropped =>
      let later := l.process now.state rest
      ⟨now.events ++ later.events, r :: later.records, later.state, later.error⟩
    | .emitted linted =>
      let later := l.process now.state rest
      ⟨now.events ++ .emit linted :: later.events, linted :: later.records, later.state,
        later.error⟩

end Linter

end LintRun
