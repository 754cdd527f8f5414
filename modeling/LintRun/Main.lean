import LintRun.Snapshot
import LintRun.Store

/-!
# The command line

`main` takes the arguments of a check and reads a snapshot of its surroundings from standard input.
It prints what the check prints and ends with the status of the check. What those who read TOML and
check values would say is left out; a snapshot does not hold it.
-/
namespace LintRun

partial def readRest (stream : IO.FS.Stream) (read : String) : IO String := do
  let line ← stream.getLine
  if line.isEmpty then return read else readRest stream (read ++ line)

end LintRun

open LintRun in
/-- Runs a check on a snapshot. -/
def main (args : List String) : IO UInt32 := do
  let snapshot ← readRest (← IO.getStdin) ""
  match Snapshot.ofText snapshot with
  | .error details =>
    for d in details do
      (← IO.getStderr).putStrLn d.defect.name
    return Ending.misused.status.toUInt32
  | .ok s =>
    let report := @Snapshot.check .leftOut s args
    (← IO.getStdout).putStr report.printed
    return report.ending.status.toUInt32
