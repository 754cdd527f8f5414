import LintRun.Command
import LintRun.CommandLine.Arguments
import LintRun.CommandLine.Words
import LintRun.Console
import LintRun.Flow
import LintRun.Linting.OfOptions
import LintRun.Record.OfFile
import LintRun.Settings

/-!
# Checks

A check lints the files named on a command line. What the command line tells goes before the
settings of the project, and these before the defaults. A check ends with a status: findings that
fail the run, an error of the program itself, which is put on the log, or an error from elsewhere.
-/
namespace LintRun

open LintRun.Command (Machine)
open LintRun.CommandLine (Arguments Reader)
open LintRun.Configuration (Memory)

variable [Wording]

/-- The words of the linter command that arguments tell; an empty text tells none. -/
def CommandLine.Arguments.commandWords (a : Arguments) : Except Error (Option (List String)) :=
  match a.command with
  | none | some "" => .ok none
  | some text => ((CommandLine.words text).mapError CommandLine.WordProblem.error).map some

/-- Settings with what arguments tell in their place; `command` holds the words of the linter
command if arguments tell it. -/
def Settings.override (s : Settings) (a : Arguments) (command : Option (List String)) : Settings :=
  { reporter := a.reporter.getD s.reporter
    reportLimit := a.reportLimit.getD s.reportLimit
    failsRun := a.failsRun.getD s.failsRun
    summarizes := a.summarizes || s.summarizes
    rulesDirectory := a.rulesDirectory.or s.rulesDirectory
    configFilename := a.configFilename.getD s.configFilename
    configuration := a.configuration.or s.configuration
    limit := a.limit.or s.limit
    command := command.or s.command }

def Settings.lintOptions (s : Settings) : LintOptions :=
  ⟨s.configuration.map .file, s.rulesDirectory, s.configFilename, s.limit⟩

/-- The time limit is looked at once more: one from the command line must be a positive number. -/
def Settings.checkLimit (s : Settings) : Except Error Unit :=
  match s.limit with
  | none => .ok ()
  | some t =>
    match Schema.Checked.under (.key "timeout") (Schema.positiveFloat (.float t)) with
    | .ok _ => .ok ()
    | .error ds => .error (.invalid (Wording.options (.table [("timeout", .float t)])) ds)

def Settings.reportOptions (s : Settings) : ReportOptions :=
  ⟨s.failsRun, s.reportLimit, s.summarizes⟩

inductive Ending where
  /-- The command line is a usage error. -/
  | misused
  | passed
  /-- Findings fail the run. -/
  | failed (s : Summary)
  /-- An error of the program itself. -/
  | stopped (e : Error)
  /-- An error from elsewhere. -/
  | crashed (e : Error)

namespace Ending

def ofError (e : Error) : Ending :=
  match e with
  | .failedRun s => .failed s
  | e => if e.isOwn then .stopped e else .crashed e

def status : Ending → Nat
  | .passed => 0
  | .failed _ | .crashed _ => 1
  | .misused | .stopped _ => 2

/-- The last line on the log; an error from elsewhere gets none. -/
def lastWords (files : Nat) : Ending → List Event
  | .misused | .crashed _ => []
  | .passed => [.log .debug s!"checked files={files}"]
  | .failed s => [.log .error s.message]
  | .stopped e => [.log .error e.message]

end Ending

structure Report (σ : Type) where
  console : Console
  events : List Event
  ending : Ending
  state : σ

def Report.printed {σ : Type} (r : Report σ) : String := r.console.transcript r.events

namespace Check

variable {σ : Type}

def records (tree : FileTree) (cwd : Location) (root : Path) (files : List Path) :
    Except Error (List Record) :=
  files.mapM fun p => Record.ofFile tree cwd p (some root)

/-- The settings that a check runs under, seen from the root. -/
def settings (m : Machine σ) (a : Arguments) (root : Path) : Except Error Settings := do
  let s ← Settings.load Depth.project m.space.tree m.space.cwd root
  return s.override a (← a.commandWords)

def flow (m : Machine σ) (s : Settings) (reporter : Option (Reporter (Memory × σ))) :
    Flow (Memory × σ) :=
  let o := s.lintOptions
  let engine := (m.engine Depth.writtenInCheck s.command).beside
  ⟨.ofOptions o (o.lookup.resolver m.space.tree m.space.cwd) engine none,
    ⟨reporter, s.reportOptions⟩⟩

/-- All that a check needs before it looks at the first record. -/
def prepare (m : Machine σ) (a : Arguments) :
    Except Error (Flow (Memory × σ) × List Record) := do
  let root ← m.space.tree.resolve m.space.cwd (a.root.getD .here)
  let s ← settings m a root
  let rs ← records m.space.tree m.space.cwd root a.files
  s.checkLimit
  let reporter ← (ReporterChoice.named s.reporter).resolve
  return (flow m s reporter, rs)

/-- A check that an error stops before the first record. -/
def stopped (console : Console) (s : σ) (e : Error) : Report σ :=
  ⟨console, (Ending.ofError e).lastWords 0, .ofError e, s⟩

def perform (console : Console) (f : Flow (Memory × σ)) (rs : List Record) (s : σ) : Report σ :=
  let outcome := f.run (.empty, s) f.judge.start rs
  let ending := match outcome.error with
    | none => .passed
    | some e => .ofError e
  ⟨console, outcome.events ++ ending.lastWords rs.length, ending, outcome.state.2⟩

def run (m : Machine σ) (output : Output) (a : Arguments) (s : σ) : Report σ :=
  let console := Console.ofOutput output a.showsDebug
  match prepare m a with
  | .error e => stopped console s e
  | .ok (f, rs) => perform console f rs s

def ofCommandLine (c : Reader) (m : Machine σ) (output : Output) (args : List String) (s : σ) :
    Report σ :=
  match Arguments.ofList? c args with
  | none => ⟨Console.ofOutput output false, [], .misused, s⟩
  | some a => run m output a s

end Check

end LintRun
