import LintRun.Error
import LintRun.Finding.Line
import LintRun.Record

/-!
# The tally of a run

A tally counts what a run has found and what has been reported, under a limit on the reported
findings; a limit of zero or less is none. `reportable` cuts a batch down to what may still be
reported, `markReported` counts it, and `summary?` gives the final message. The findings that the
limit kept from the reporter are counted too.
-/
namespace LintRun

/-- The counters of one run. -/
structure Tally where
  limit : Int
  /-- The files with findings, in order. -/
  files : List Record
  /-- All findings, in order, reported or not. -/
  findings : List Finding
  reported : Int
  /-- Whether the limit has been reached. -/
  suppressed : Bool

namespace Tally

def start (limit : Int) : Tally := ⟨limit, [], [], 0, false⟩

/-- Counts the findings of a file; a file without findings is not counted. -/
def record (t : Tally) (file : Record) (fs : List Finding) : Tally :=
  if fs.isEmpty then t
  else { t with files := t.files ++ [file], findings := t.findings ++ fs }

/-- The findings that may still be reported. -/
def reportable (t : Tally) (fs : List Finding) : List Finding :=
  if t.limit ≤ 0 then fs else fs.take (t.limit - t.reported).toNat

/-- Counts reported findings. The answer is true when the limit is reached for the first time. -/
def markReported (t : Tally) (count : Int) : Tally × Bool :=
  let reported := t.reported + count
  if 0 < t.limit && !t.suppressed && t.limit ≤ reported then
    ({ t with reported := reported, suppressed := true }, true)
  else ({ t with reported := reported }, false)

/-- The findings that the final message covers. -/
def covered (t : Tally) : List Finding :=
  if t.limit ≤ 0 then t.findings else t.findings.take t.limit.toNat

def ignored (t : Tally) : Nat := t.findings.length - t.covered.length

/-- What the final message says of the findings that it covers: their number, or each of them, if
each can be shown. -/
def body (summarizes : Bool) (fs : List Finding) : Except Excess String :=
  if summarizes then .ok s!"{fs.length} errors."
  else (fs.mapM Finding.prose).map fun lines => String.intercalate ", " lines ++ "."

/-- The final message over covered and ignored findings. -/
def summaryOf (summarizes : Bool) (fs : List Finding) (ignored : Nat) : Except Excess Summary :=
  (body summarizes fs).map fun body =>
    ⟨"Failed to lint: " ++ body
      ++ (if ignored = 0 then "" else s!" ({ignored} other errors not shown.)"), fs, ignored⟩

/-- The final message, unless no file has findings. -/
def summary? (t : Tally) (summarizes : Bool) : Except Excess (Option Summary) :=
  if t.files.isEmpty then .ok none else (summaryOf summarizes t.covered t.ignored).map some

end Tally

end LintRun
