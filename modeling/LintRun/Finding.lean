import LintRun.Schema

/-!
# Findings

A finding is one complaint of a linter: the file it is about, the message, the stretch of text
from `start` to `stop`, and the rule that was broken. `Finding.toValue` writes it with the keys
that linters use, `Finding.ofValue` reads it; three of the keys have a second spelling.
-/
namespace LintRun

/-- A place in a file, counted from zero. -/
structure Point where
  offset : Int
  line : Int
  column : Int
  deriving DecidableEq, Repr

/-- One complaint of a linter. -/
structure Finding where
  file : String
  message : String
  start : Point
  stop : Point
  rule : String
  deriving DecidableEq, Repr

open Schema

def Point.toValue (p : Point) : Value :=
  .table [("position", .int p.offset), ("line", .int p.line), ("character", .int p.column)]

/-- A finding as a table, with its keys in their fixed order. -/
def Finding.toValue (f : Finding) : Value :=
  .table [("name", .text f.file), ("failure", .text f.message),
    ("startPosition", f.start.toValue), ("endPosition", f.stop.toValue), ("ruleName", .text f.rule)]

/-- A place needs a line and a character; its offset is zero when left out. -/
def Point.ofTable (t : Table) : Checked Point :=
  Checked.apply (Checked.apply (Checked.apply (.ok Point.mk)
    (withDefault int "position" 0 t))
    (required int "line" t))
    (required int "character" t)

def Point.ofValue : Value → Checked Point := model Point.ofTable

/-- A finding needs all its fields; other keys are not looked at. -/
def Finding.ofTable (t : Table) : Checked Finding :=
  Checked.apply (Checked.apply (Checked.apply (Checked.apply (Checked.apply (.ok Finding.mk)
    (required text "name" t))
    (required text "failure" t))
    (requiredEither Point.ofValue "startPosition" "start_position" t))
    (requiredEither Point.ofValue "endPosition" "end_position" t))
    (requiredEither text "ruleName" "rule_name" t)

def Finding.ofValue : Value → Checked Finding := model Finding.ofTable

end LintRun
