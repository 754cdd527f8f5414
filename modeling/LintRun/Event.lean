import LintRun.Engine

/-!
# Events

What a run does to its surroundings, in the order it happens: lines on the log, calls of the
parts supplied from outside, and records handed on.
-/
namespace LintRun

inductive Channel where
  | info
  | error
  | raw
  | debug
  deriving DecidableEq, Repr

/-- The findings of one file on their way to a reporter. -/
structure Batch where
  findings : List Finding
  record : Option Record
  options : Option ReportOptions

/-- One thing that a run does. -/
inductive Event where
  | log (c : Channel) (words : String)
  /-- The resolver is asked for the configuration of a file. -/
  | resolve (p : Path)
  /-- The engine is asked. -/
  | request (r : Request)
  /-- The reporter is called. -/
  | report (b : Batch)
  /-- A record is handed on. -/
  | emit (r : Record)
  /-- A record is dropped: the error handler gets it. -/
  | refuse (r : Record) (e : Error)

end LintRun
