import LintRun.Options
import LintRun.Record

/-!
# Linter engines

An engine answers a request to lint one file. It is supplied from outside and may keep a state of
its own, take time, give back anything and end with any error; or it may be no engine at all, a
value that cannot be called. `Engine.run` turns what an engine does into a payload or an error:
an ordinary error is told with the file it happened on.
-/
namespace LintRun

/-- What an engine is asked: to lint a text under a configuration. -/
structure Request where
  relative : String
  text : String
  configuration : Table
  rulesDirectory : Option Path

namespace Request

/-- Engines always give their findings as JSON. -/
def formatter : String := "json"

end Request

inductive Answer where
  | payload (p : Payload)
  | value (v : Value)
  /-- An object with attributes; `shown` is how messages quote it. It may fault when it is quoted,
  or when an attribute is asked for. -/
  | object (shown : Except Fault String) (output format : Except Fault (Option Value))

/-- A call of a part supplied from outside: how it ends, and after how many seconds. A call that
never ends takes infinitely many. -/
structure Call (α : Type) where
  ending : Except Error α
  seconds : Float

inductive Engine (σ : Type) where
  | callable (lint : Request → σ → Call Answer × σ)
  | uncallable (v : Value)

/-- The error of an answer that is no payload. -/
def unexpected (relative : String) (v : Value) : Error :=
  match v.quote? with
  | .ok shown => .engine (.unexpected relative shown)
  | .error x => .ofExcess x

/-- The payload of an object whose output is a text. -/
def formatted (output : String) : Option Value → Except Error Payload
  | none => .ok (.ofText output)
  | some v => (v.shown?.map fun format => ⟨output, format⟩).mapError .ofExcess

/-- The payload that an answer amounts to: a payload itself, a text, or an object whose output is
a text. The format of an object is looked at only then, and else the object is quoted. -/
def Answer.toPayload (relative : String) : Answer → Except Error Payload
  | .payload p => .ok p
  | .value (.text s) => .ok (.ofText s)
  | .value v => .error (unexpected relative v)
  | .object shown output format => do
    match ← output.mapError .ofFault with
    | some (.text s) => formatted s (← format.mapError .ofFault)
    | _ => .error (.engine (.unexpected relative (← shown.mapError .ofFault)))

/-- What becomes of the error of an engine: an engine error and a cancellation stay what they
are, any other is told with the file. -/
def Error.ofEngine (relative : String) : Error → Error
  | .engine p => .engine p
  | .cancelled words => .cancelled words
  | e => .engine (.failed relative e.message)

def Call.toPayload (relative : String) (c : Call Answer) : Call Payload :=
  ⟨match c.ending with
    | .ok a => a.toPayload relative
    | .error e => .error (e.ofEngine relative), c.seconds⟩

/-- The error of a value that was called as an engine. -/
def notCallable (v : Value) : Error := .outside .type s!"'{v.kind}' object is not callable"

namespace Engine

variable {σ : Type}

def calls (e : Engine σ) (r : Request) : List Request :=
  match e with
  | .callable _ => [r]
  | .uncallable _ => []

def run (e : Engine σ) (r : Request) (s : σ) : Call Payload × σ :=
  match e with
  | .callable lint =>
    let (c, s) := lint r s
    (c.toPayload r.relative, s)
  | .uncallable v => (⟨.error ((notCallable v).ofEngine r.relative), 0⟩, s)

end Engine

end LintRun
