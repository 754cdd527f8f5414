import LintRun.Depth
import LintRun.Finding
import LintRun.Json.Printer

/-!
# Findings as lines

The line formats of the reporters and of the final message. Findings count lines and columns from
zero; every line shows them counted from one, unless that takes too many digits.
-/
namespace LintRun.Finding

/-- Whether the place of a finding has too many digits to be shown. -/
def isFarOff (f : Finding) : Bool :=
  Excess.isLong (f.start.line + 1) || Excess.isLong (f.start.column + 1)

/-- A line that shows the place of a finding, if the place can be shown. -/
def showing (f : Finding) (line : String) : Except Excess String :=
  if f.isFarOff then .error .spelling else .ok line

/-- `file[line, column]: message`. -/
def prose (f : Finding) : Except Excess String :=
  f.showing s!"{f.file}[{f.start.line + 1}, {f.start.column + 1}]: {f.message}"

/-- `(rule) file[line, column]: message`, with another name for the file if one is given. -/
def verbose (f : Finding) (name : Option String) : Except Excess String :=
  f.showing s!"({f.rule}) {name.getD f.file}[{f.start.line + 1}, {f.start.column + 1}]: {f.message}"

/-- `path(line,column): warning rule: message`, as build tools read it. -/
def buildWarning (f : Finding) (path : String) : Except Excess String :=
  f.showing s!"{path}({f.start.line + 1},{f.start.column + 1}): warning {f.rule}: {f.message}"

/-- All findings in one JSON list without blanks. -/
def jsonLine (fs : List Finding) : Except Json.Unwritable String :=
  Json.encode? .compact Depth.written (.list (fs.map Finding.toValue))

end LintRun.Finding
