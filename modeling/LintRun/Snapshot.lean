import LintRun.Check
import LintRun.Json.Reader

/-!
# Snapshots

A snapshot holds all that a check can see of its surroundings: files, the working directory, the
search path, and what the linter command prints each time it runs. A check on a snapshot does
exactly what it would do there, so that a run can be kept and looked at again.
-/
namespace LintRun

open Schema

/-- The surroundings of a check, and the runs of the linter command that are still to come. -/
structure Snapshot where
  tree : FileTree
  directory : String
  searchPath : String
  runs : List Command.Finished

namespace Snapshot

def bytes (v : Value) : Checked ByteArray := (text v).map Text.Utf8.encode

/-- An entry of the tree: a text is a file, nothing is a directory, and a table is a file or a link
with its attributes. -/
def entry : Value → Checked Entry
  | .null => .ok .directory
  | .text s => .ok (.file (Text.Utf8.encode s) false)
  | v =>
    model (fun t =>
      if (Entries.get? "link" t).isSome then (required text "link" t).map .link
      else
        Checked.apply (Checked.apply (.ok Entry.file) (withDefault bytes "text" ByteArray.empty t))
          (withDefault bool "executable" false t)) v

def entries : Table → Checked FileTree
  | [] => .ok .empty
  | (path, v) :: rest =>
    (Checked.both (Checked.under (.key path) (entry v)) (entries rest)).map fun (e, t) =>
      ⟨((Path.ofString path).names, e) :: t.entries⟩

def finished : Value → Checked Command.Finished :=
  model fun t =>
    Checked.apply (Checked.apply (Checked.apply (.ok Command.Finished.mk)
      (withDefault int "status" 0 t))
      (withDefault bytes "output" ByteArray.empty t))
      (withDefault bytes "complaint" ByteArray.empty t)

def ofTable (t : Table) : Checked Snapshot :=
  Checked.apply (Checked.apply (Checked.apply (Checked.apply (.ok Snapshot.mk)
    (withDefault (model entries) "files" .empty t))
    (withDefault text "directory" "/" t))
    (withDefault text "path" "/bin" t))
    (withDefault (listOf finished) "runs" [] t)

def ofText (s : String) : Checked Snapshot :=
  match Json.read .unlimited s with
  | .ok v => model ofTable v
  | .error _ => .defect .jsonInvalid

def scratch : Location := ["tmp", "lintstream"]

/-- The next of the runs that are still to come; after the last one the command prints nothing. -/
def next (runs : List Command.Finished) : Call Command.Finished × List Command.Finished :=
  match runs with
  | [] => (⟨.ok ⟨0, ByteArray.empty, ByteArray.empty⟩, 0⟩, [])
  | run :: rest => (⟨.ok run, 0⟩, rest)

def workingDirectory (s : Snapshot) : Location :=
  match s.tree.walk [] s.directory with
  | .ok (l, .directory) => l
  | _ => (Path.ofString s.directory).names

/-- The machine of a snapshot: every executable file is the linter command. -/
def machine (s : Snapshot) : Command.Machine (List Command.Finished) :=
  ⟨⟨s.tree, s.workingDirectory, s.searchPath⟩, scratch, fun _ => some fun _ => next⟩

def check [Wording] (s : Snapshot) (args : List String) : Report (List Command.Finished) :=
  Check.ofCommandLine (.ofTree s.tree s.workingDirectory) s.machine .plain args s.runs

end Snapshot

end LintRun
