import LintRun.Event
import LintRun.Finding.Line

/-!
# Reporters

A reporter gets the findings of each file while the run goes on. The built-in ones write to the
log: one line per finding, or all findings of the file as one JSON list. A finding that cannot be
shown ends them with an error. A reporter supplied from outside may keep a state, writes what it
likes, and may end with any error. The list of findings is its own: it may leave anything in it.
-/
namespace LintRun

inductive ReporterName where
  | json
  | prose
  | verbose
  | full
  | msbuild
  deriving DecidableEq, Repr

namespace ReporterName

/-- All names, in the order in which messages list them. -/
def all : List ReporterName := [.json, .prose, .verbose, .full, .msbuild]

def text : ReporterName → String
  | .json => "json"
  | .prose => "prose"
  | .verbose => "verbose"
  | .full => "full"
  | .msbuild => "msbuild"

def ofText? (s : String) : Option ReporterName := all.find? fun n => n.text = s

end ReporterName

structure LogLine where
  channel : Channel
  words : String
  deriving DecidableEq, Repr

/-- What is written: lines for the log, and the error that comes after them, if any. -/
structure Written where
  lines : List LogLine
  error : Option Error

/-- A call of a reporter: what it writes, what it leaves in the list that held the findings of the
batch, and its state afterwards. -/
structure Handling (σ : Type) where
  written : Written
  left : List Finding
  state : σ

/-- A reporter: what it does for a batch in a state. -/
abbrev Reporter (σ : Type) := Batch → σ → Handling σ

namespace Written

/-- A single line, unless it cannot be written. -/
def one (c : Channel) : Except Error String → Written
  | .ok words => ⟨[⟨c, words⟩], none⟩
  | .error e => ⟨[], some e⟩

/-- One thing after the other, up to the first error. -/
def append (first second : Written) : Written :=
  match first.error with
  | some _ => first
  | none => ⟨first.lines ++ second.lines, second.error⟩

/-- A line for each finding, up to the first one that cannot be shown. -/
def each (c : Channel) (line : Finding → Except Excess String) : List Finding → Written
  | [] => ⟨[], none⟩
  | f :: rest => (one c ((line f).mapError .ofExcess)).append (each c line rest)

end Written

/-- What the built-in reporters write. The full one names a file by its path, and so does the one
for build tools, which writes past the log. -/
def ReporterName.write : ReporterName → Batch → Written
  | .json, b => .one .error ((Finding.jsonLine b.findings).mapError .ofUnwritable)
  | .prose, b => .each .error Finding.prose b.findings
  | .verbose, b => .each .error (·.verbose none) b.findings
  | .full, b => .each .error (·.verbose (b.record.map (·.path.toString))) b.findings
  | .msbuild, b => .each .raw
      (fun f => f.buildWarning ((b.record.map (·.path.toString)).getD f.file)) b.findings

/-- The built-in reporters. They leave the findings as they are, and keep no state. -/
def ReporterName.reporter {σ : Type} (name : ReporterName) : Reporter σ :=
  fun b s => ⟨name.write b, b.findings, s⟩

/-- The choice of a reporter: none, one by its name, one from outside, or a value that is no
reporter. -/
inductive ReporterChoice (σ : Type) where
  | none
  | named (name : String)
  | custom (r : Reporter σ)
  | unusable (v : Value)

def ReporterChoice.resolve {σ : Type} : ReporterChoice σ → Except Error (Option (Reporter σ))
  | .none => .ok .none
  | .named s =>
    match ReporterName.ofText? s with
    | some n => .ok (some n.reporter)
    | Option.none => .error (.reporter (.unknownName s (ReporterName.all.map ReporterName.text)))
  | .custom r => .ok (some r)
  | .unusable v => .error (.reporter (.unusable v.quoted))

end LintRun
