import LintRun.Proofs.Check.Preparation
import LintRun.Proofs.CommandLine.Arguments
import LintRun.Proofs.Flow.Answers
import LintRun.Proofs.Flow.Verdict
import LintRun.Proofs.Reporter

/-!
# The status of a check

A check fails if its records have all passed and findings are to fail it; it is stopped by an error
of its settings, its reporter or one of its stages; and errors of the surroundings escape it
(`Fails`, `Stops`, `Escapes`). These three exclude each other, and a check for which none of them
holds has passed. A check that fails and one that an error escapes from end with the same status
(`status_of_check`).
-/
namespace LintRun

/-- An error that a stage gives for a record: the configuration cannot be found out, the engine
fails, or either takes too long. -/
def Error.IsOfStage (e : Error) : Prop :=
  (∃ path cause, e = .resolution path cause) ∨ (∃ p, e = .engine p) ∨
    ∃ path phase t, e = .overtime path phase t

namespace Ending

variable {e : Error}

theorem ofError_of_foreign (foreign : e.isOwn = false) : ofError e = .crashed e := by
  cases e with
  | failedRun summary => cases foreign
  | _ => simp [ofError, foreign]

theorem status_eq_one_iff (x : Ending) :
    x.status = 1 ↔ (∃ final, x = .failed final) ∨ ∃ e, x = .crashed e := by
  cases x <;> simp [status]

theorem status_eq_two_iff (x : Ending) :
    x.status = 2 ↔ x = .misused ∨ ∃ e, x = .stopped e := by
  cases x <;> simp [status]

theorem status_eq_zero_iff (x : Ending) : x.status = 0 ↔ x = .passed := by
  cases x <;> simp [status]

theorem ofError_of_isOfStage (ofStage : e.IsOfStage) : ofError e = .stopped e := by
  rcases ofStage with ⟨_, _, rfl⟩ | ⟨_, rfl⟩ | ⟨_, _, _, rfl⟩ <;> rfl

end Ending

/-- What a linting stage that asks a command fails with on a record that holds bytes. -/
theorem Linter.isOfStage_of_failed {σ : Type} {l : Linter σ} {m : Command.Machine σ} {depth : Nat}
    {command : Option (List String)} (asks : l.engine = m.engine depth command)
    (nobody : l.handler = none) {r : Record} {s : σ} {e : Error}
    (holds : ∃ b, r.contents = .bytes b) (failed : (l.handle r s).fate = .failed e) :
    e.IsOfStage ∨ ∃ words, e = .cancelled words := by
  obtain ⟨b, contents⟩ := holds
  have visits := l.handle_visits r s
  generalize l.handle r s = v at visits failed
  cases visits with
  | skipped => cases failed
  | dropped => cases failed
  | linted => cases failed
  | streaming _ stream => simp [Record.isStream, contents] at stream
  | raised _ _ _ _ ends =>
    obtain ⟨_, _, _, _, _, _, _, chosen⟩ := ends
    cases nobody.symm.trans chosen
  | unbuffered _ _ _ _ _ _ textless => simp [Record.text, contents] at textless
  | unresolved _ _ e' _ unresolved =>
    rw [fail_fate] at failed
    cases failed
    obtain ⟨_, cause, -, -, rfl⟩ := l.resolve_error r s _ _ unresolved
    rcases Error.ofResolver_cases r.path cause with ⟨path, why, kind⟩ | late | cancelled
    · exact .inl (.inl ⟨path, why, kind⟩)
    · exact .inl (.inr (.inr late))
    · exact .inr cancelled
  | refused _ _ configuration next _ text _ c last asked e' refusal =>
    rw [fail_fate] at failed
    cases failed
    rcases c.within_error _ _ _ _ refusal with ending | ⟨t, -, late, -⟩
    · rw [asks] at asked
      have raised : ((m.engine depth command).run (l.requestFor r configuration text)
          next).1.ending = .error e := by
        rw [asked]
        exact ending
      rcases Command.Machine.error_of_run raised with ofEngine | cancelled
      · exact .inl (.inr (.inl ofEngine))
      · exact .inr cancelled
    · exact .inl (.inr (.inr ⟨_, _, t, late⟩))

namespace Check

open LintRun.Command (Machine)
open LintRun.CommandLine (Arguments Reader)
open LintRun.Configuration (Memory)

section Law

variable [Wording] {σ : Type}

/-- What a check does before the verdict: the pass over its records, with nothing remembered. -/
def front (f : Flow (Memory × σ)) (rs : List Record) (s : σ) : Outcome (Memory × σ) :=
  f.pass (.empty, s) f.judge.start rs

def judged (f : Flow (Memory × σ)) (rs : List Record) (s : σ) : List Finding :=
  foundIn (emitted (front f rs s).events)

def covered (f : Flow (Memory × σ)) (rs : List Record) (s : σ) : List Finding :=
  upTo f.judge.options.limit (judged f rs s)

def summary (f : Flow (Memory × σ)) (rs : List Record) (s : σ) : Summary :=
  let ignored := (judged f rs s).length - (covered f rs s).length
  ⟨verdictWords f.judge.options.summarizes (covered f rs s) ignored, covered f rs s, ignored⟩

section Predicates

variable (m : Machine σ) (a : Arguments) (s : σ)

inductive Fails : Summary → Prop where
  | judged {f : Flow (Memory × σ)} {rs : List Record} (prepared : prepare m a = .ok (f, rs))
    (reached : (front f rs s).error = none) (found : judged f rs s ≠ [])
    (sayable : f.judge.options.CanSay (covered f rs s)) (fails : f.judge.options.failsRun = true) :
    Fails (summary f rs s)

/-- An error of the settings, of the choice of a reporter, or of a stage stops the check. -/
inductive Stops : Error → Prop where
  | settings {root : Path}
    (resolved : m.space.tree.resolve m.space.cwd (a.root.getD .here) = .ok root)
    {p : ConfigProblem}
    (invalid : Settings.load Depth.project m.space.tree m.space.cwd root = .error (.config p)) :
    Stops (.config p)
  | reporter {root : Path} {st : Settings} {rs : List Record}
    (resolved : m.space.tree.resolve m.space.cwd (a.root.getD .here) = .ok root)
    (settled : settings m a root = .ok st)
    (read : records m.space.tree m.space.cwd root a.files = .ok rs)
    (limited : ∀ t, st.limit = some t → 0 < t)
    (unknown : ReporterName.ofText? st.reporter = none) :
    Stops (.reporter (.unknownName st.reporter (ReporterName.all.map ReporterName.text)))
  | stage {f : Flow (Memory × σ)} {rs : List Record} (prepared : prepare m a = .ok (f, rs))
    {e : Error} (failed : (front f rs s).error = some e) (ofStage : e.IsOfStage) : Stops e

/-- An error escapes the check: the root or a named file cannot be found out, the project file
cannot be used for a reason that is not told, the command cannot be cut into words, the time limit
is no positive number, a program is cancelled, or a place has too many digits for the reporter or
for the final message. -/
inductive Escapes : Error → Prop where
  | root {e : Error} (lost : m.space.tree.resolve m.space.cwd (a.root.getD .here) = .error e) :
    Escapes e
  | project {root : Path}
    (resolved : m.space.tree.resolve m.space.cwd (a.root.getD .here) = .ok root) {e : Error}
    (untold : Settings.Untold Depth.project m.space.tree m.space.cwd root e) : Escapes e
  | command {root : Path} {st : Settings}
    (resolved : m.space.tree.resolve m.space.cwd (a.root.getD .here) = .ok root)
    (loaded : Settings.load Depth.project m.space.tree m.space.cwd root = .ok st) {text : String}
    (told : a.command = some text) {p : CommandLine.WordProblem}
    (uncut : CommandLine.words text = .error p) : Escapes p.error
  | file {root : Path} {st : Settings}
    (resolved : m.space.tree.resolve m.space.cwd (a.root.getD .here) = .ok root)
    (settled : settings m a root = .ok st) {e : Error}
    (unread : records m.space.tree m.space.cwd root a.files = .error e) : Escapes e
  | options {root : Path} {st : Settings} {rs : List Record}
    (resolved : m.space.tree.resolve m.space.cwd (a.root.getD .here) = .ok root)
    (settled : settings m a root = .ok st)
    (read : records m.space.tree m.space.cwd root a.files = .ok rs) {t : Float}
    (limited : st.limit = some t) (refused : ¬ 0 < t) : Escapes (Settings.limitError t)
  | cancelled {f : Flow (Memory × σ)} {rs : List Record} (prepared : prepare m a = .ok (f, rs))
    {words : String} (failed : (front f rs s).error = some (.cancelled words)) :
    Escapes (.cancelled words)
  | reporting {f : Flow (Memory × σ)} {rs : List Record} (prepared : prepare m a = .ok (f, rs))
    (failed : (front f rs s).error = some (.ofExcess .spelling)) : Escapes (.ofExcess .spelling)
  | verdict {f : Flow (Memory × σ)} {rs : List Record} (prepared : prepare m a = .ok (f, rs))
    (reached : (front f rs s).error = none) (found : judged f rs s ≠ [])
    (unsayable : ¬ f.judge.options.CanSay (covered f rs s)) : Escapes (.ofExcess .spelling)

end Predicates

variable {m : Machine σ} {a : Arguments} {s : σ} {f : Flow (Memory × σ)} {rs : List Record}
  {e : Error}

/-- What keeps the records of a check from passing. -/
theorem front_error_cases (prepared : prepare m a = .ok (f, rs))
    (failed : (front f rs s).error = some e) :
    e.IsOfStage ∨ (∃ words, e = .cancelled words) ∨ e = .ofExcess .spelling := by
  obtain ⟨root, st, name, -, -, read, -, -, rfl⟩ := prepare_eq_ok.mp prepared
  have held := bytes_of_records read
  have asks : (flow m st (some name.reporter)).linter.engine =
      m.beside.engine Depth.writtenInCheck st.command :=
    m.engine_beside Depth.writtenInCheck st.command
  obtain ⟨before, r, later, rfl, -, ⟨left, interrupts⟩ | breaks⟩ :=
    Flow.pass_error_cases _ _ _ rs e failed
  · obtain ⟨unlinted, holds⟩ := held r (by simp)
    have fate := interrupts.fate_eq asks fun _ => unlinted
    exact (Linter.isOfStage_of_failed asks rfl holds fate).imp_right .inl
  · cases breaks with
    | handler last ends =>
      obtain ⟨_, _, _, _, _, _, _, chosen⟩ := ends
      cases chosen
    | reporter linted b handed about broken =>
      have written : (name.write b).error = some e := broken
      rw [name.error_write] at written
      split at written
      · cases written
      · exact .inr (.inr (Option.some.inj written).symm)

/-- The reporter of a check leaves its list as long as it got it. -/
theorem keepsCount_of_prepare (prepared : prepare m a = .ok (f, rs)) :
    ∀ write, f.judge.reporter = some write → write.KeepsCount := by
  obtain ⟨_, _, name, -, -, -, -, -, rfl⟩ := prepare_eq_ok.mp prepared
  rintro write chosen
  obtain rfl := Option.some.inj chosen
  exact name.keepsCount

/-- Settings that are not there have a problem that stops the check, or one that escapes it. -/
theorem settings_error_cases {root : Path}
    (resolved : m.space.tree.resolve m.space.cwd (a.root.getD .here) = .ok root)
    (failed : settings m a root = .error e) : Stops m a s e ∨ Escapes m a s e := by
  rcases settings_eq_error.mp failed with unloaded | ⟨st, text, p, loaded, told, uncut, rfl⟩
  · rcases Settings.load_error_cases unloaded with ⟨p, rfl⟩ | untold
    · exact .inl (.settings resolved unloaded)
    · exact .inr (.project resolved untold)
  · exact .inr (.command resolved loaded told uncut)

theorem prepare_error_cases (failed : prepare m a = .error e) :
    Stops m a s e ∨ Escapes m a s e := by
  rcases prepare_eq_error.mp failed with lost | ⟨root, resolved, unsettled | ⟨st, settled,
    unread | ⟨rs, read, unlimited | ⟨_, limited, unknown, rfl⟩⟩⟩⟩
  · exact .inr (.root lost)
  · exact settings_error_cases resolved unsettled
  · exact .inr (.file resolved settled unread)
  · obtain ⟨t, limited, refused, rfl⟩ := Settings.checkLimit_eq_error.mp unlimited
    exact .inr (.options resolved settled read limited refused)
  · exact .inl (.reporter resolved settled read (Settings.checkLimit_eq_ok.mp limited) unknown)

section Endings

variable (output : Output)

theorem run_of_prepare_error (unprepared : prepare m a = .error e) :
    run m output a s = stopped (Console.ofOutput output a.showsDebug) s e := by
  simp only [run, unprepared]

/-- A check that stops at a record ends with the error, behind what was done before. -/
theorem run_of_stopped (prepared : prepare m a = .ok (f, rs))
    (failed : (front f rs s).error = some e) :
    (run m output a s).ending = .ofError e ∧
      (run m output a s).events =
        (front f rs s).events ++ (Ending.ofError e).lastWords rs.length := by
  have whole : f.run (.empty, s) f.judge.start rs = front f rs s :=
    f.run_of_stopped _ _ _ e failed
  simp only [run, prepared, perform, whole, failed, and_self]

/-- A check whose records have all passed ends with the verdict on what they were found to hold. -/
theorem run_of_reached (prepared : prepare m a = .ok (f, rs))
    (reached : (front f rs s).error = none) :
    let verdict := f.judge.options.verdict
      (.after f.judge.options.limit (emitted (front f rs s).events))
    let ending := match verdict.2 with
      | none => .passed
      | some e => .ofError e
    (run m output a s).ending = ending ∧
      (run m output a s).events =
        (front f rs s).events ++ verdict.1 ++ ending.lastWords rs.length := by
  intro verdict ending
  have whole := f.run_of_reached (keepsCount_of_prepare prepared) (.empty, s) rs reached
  simp only [run, prepared, perform, whole]
  exact ⟨rfl, rfl⟩

/-- A check that fails says so in its last words. -/
theorem Fails.run_eq {final : Summary} (fails : Fails m a s final) :
    (run m output a s).ending = .failed final ∧
      ∃ earlier, (run m output a s).events = earlier ++ [.log .error final.message] := by
  obtain ⟨prepared, reached, found, sayable, wanted⟩ := fails
  next f rs =>
  have verdict := f.judge.options.verdict_of_canSay _ found sayable
  dsimp only at verdict
  rw [if_pos wanted] at verdict
  obtain ⟨ending, events⟩ := run_of_reached output prepared reached
  rw [verdict] at ending events
  exact ⟨ending, _, events⟩

/-- A check that an error stops says so in its last words. -/
theorem Stops.run_eq (stops : Stops m a s e) :
    (run m output a s).ending = .stopped e ∧
      ∃ earlier, (run m output a s).events = earlier ++ [.log .error e.message] := by
  cases stops with
  | settings resolved invalid =>
    have unprepared := prepare_eq_error.mpr
      (.inr ⟨_, resolved, .inl ((settings_eq_error (a := a)).mpr (.inl invalid))⟩)
    rw [run_of_prepare_error output unprepared]
    exact ⟨rfl, [], rfl⟩
  | reporter resolved settled read limited unknown =>
    have unprepared := prepare_eq_error.mpr
      (.inr ⟨_, resolved, .inr ⟨_, settled, .inr ⟨_, read,
        .inr ⟨(), Settings.checkLimit_eq_ok.mpr limited, unknown, rfl⟩⟩⟩⟩)
    rw [run_of_prepare_error output unprepared]
    exact ⟨rfl, [], rfl⟩
  | stage prepared failed ofStage =>
    obtain ⟨ending, events⟩ := run_of_stopped output prepared failed
    rw [Ending.ofError_of_isOfStage ofStage] at ending events
    exact ⟨ending, _, events⟩

/-- An error that escapes a check is not told by it. -/
theorem Escapes.run_eq (escapes : Escapes m a s e) : (run m output a s).ending = .crashed e := by
  have early (unprepared : prepare m a = .error e) (foreign : e.isOwn = false) :
      (run m output a s).ending = .crashed e := by
    rw [run_of_prepare_error output unprepared]
    exact Ending.ofError_of_foreign foreign
  cases escapes with
  | root lost =>
    exact early (prepare_eq_error.mpr (.inl lost)) (FileTree.isOwn_of_resolve lost)
  | project resolved untold =>
    have unloaded := (settings_eq_error (a := a)).mpr (.inl (Settings.load_of_untold untold))
    exact early (prepare_eq_error.mpr (.inr ⟨_, resolved, .inl unloaded⟩)) untold.isOwn
  | command resolved loaded told uncut =>
    have unsettled := (settings_eq_error (a := a)).mpr (.inr ⟨_, _, _, loaded, told, uncut, rfl⟩)
    exact early (prepare_eq_error.mpr (.inr ⟨_, resolved, .inl unsettled⟩)) rfl
  | file resolved settled unread =>
    exact early (prepare_eq_error.mpr (.inr ⟨_, resolved, .inr ⟨_, settled, .inl unread⟩⟩))
      (isOwn_of_records unread)
  | options resolved settled read limited refused =>
    have unlimited := Settings.checkLimit_eq_error.mpr ⟨_, limited, refused, rfl⟩
    exact early (prepare_eq_error.mpr
      (.inr ⟨_, resolved, .inr ⟨_, settled, .inr ⟨_, read, .inl unlimited⟩⟩⟩)) rfl
  | cancelled prepared failed => exact (run_of_stopped output prepared failed).1
  | reporting prepared failed => exact (run_of_stopped output prepared failed).1
  | @verdict f rs prepared reached found unsayable =>
    have ending := (run_of_reached output prepared reached).1
    rwa [f.judge.options.verdict_of_not_canSay _ found unsayable] at ending

/-- A check fails, or is stopped, or an error escapes it, or it has passed. -/
theorem ending_cases (m : Machine σ) (a : Arguments) (s : σ) :
    let ending := (run m output a s).ending
    (∃ final, Fails m a s final ∧ ending = .failed final) ∨
      (∃ e, Stops m a s e ∧ ending = .stopped e) ∨
      (∃ e, Escapes m a s e ∧ ending = .crashed e) ∨ ending = .passed := by
  have stopped {e : Error} (stops : Stops m a s e) := And.intro stops (stops.run_eq output).1
  have crashed {e : Error} (escapes : Escapes m a s e) := And.intro escapes (escapes.run_eq output)
  cases prepared : prepare m a with
  | error e =>
    rcases prepare_error_cases (s := s) prepared with stops | escapes
    · exact .inr (.inl ⟨e, stopped stops⟩)
    · exact .inr (.inr (.inl ⟨e, crashed escapes⟩))
  | ok ready =>
    obtain ⟨f, rs⟩ := ready
    cases reached : (front f rs s).error with
    | some e =>
      rcases front_error_cases prepared reached with ofStage | ⟨words, rfl⟩ | rfl
      · exact .inr (.inl ⟨e, stopped (.stage prepared reached ofStage)⟩)
      · exact .inr (.inr (.inl ⟨_, crashed (.cancelled prepared reached)⟩))
      · exact .inr (.inr (.inl ⟨_, crashed (.reporting prepared reached)⟩))
    | none =>
      have ending := (run_of_reached output prepared reached).1
      by_cases found : judged f rs s = []
      · rw [f.judge.options.verdict_of_none_found _ found] at ending
        exact .inr (.inr (.inr ending))
      · by_cases sayable : f.judge.options.CanSay (covered f rs s)
        · by_cases wanted : f.judge.options.failsRun = true
          · have fails : Fails m a s (summary f rs s) :=
              .judged prepared reached found sayable wanted
            exact .inl ⟨_, fails, (fails.run_eq output).1⟩
          · have verdict := f.judge.options.verdict_of_canSay _ found sayable
            dsimp only at verdict
            rw [if_neg wanted] at verdict
            rw [verdict] at ending
            exact .inr (.inr (.inr ending))
        · exact .inr (.inr (.inl ⟨_, crashed (.verdict prepared reached found sayable)⟩))

end Endings

/-- A check whose command line is understood fails exactly if findings fail it, and is stopped
exactly if an error stops it; either way its last words tell why. It ends with status 2 exactly if
an error stops it, and with status 0 exactly if it neither fails nor is stopped nor an error escapes
it. Status 1 is that of a check that fails, and also that of one that an error escapes from. -/
theorem status_of_check (c : Reader) (m : Machine σ) (output : Output) (args : List String)
    (a : Arguments) (s : σ) (told : Arguments.ofList? c args = some a) :
    let report := ofCommandLine c m output args s
    (∀ final, report.ending = .failed final ↔ Fails m a s final) ∧
      (∀ e, report.ending = .stopped e ↔ Stops m a s e) ∧
      (∀ e, report.ending = .crashed e ↔ Escapes m a s e) ∧
      (∀ final, Fails m a s final →
        ∃ earlier, report.events = earlier ++ [.log .error final.message]) ∧
      (∀ e, Stops m a s e → ∃ earlier, report.events = earlier ++ [.log .error e.message]) ∧
      (report.ending.status = 1 ↔ (∃ final, Fails m a s final) ∨ ∃ e, Escapes m a s e) ∧
      (report.ending.status = 2 ↔ ∃ e, Stops m a s e) ∧
      (report.ending.status = 0 ↔
        ¬ (∃ final, Fails m a s final) ∧ ¬ (∃ e, Stops m a s e) ∧ ¬ ∃ e, Escapes m a s e) := by
  intro report
  have whole : report = run m output a s := by
    simp only [report, ofCommandLine, told]
  rw [whole]
  have ended := ending_cases output m a s
  dsimp only at ended
  have failed (final : Summary) : (run m output a s).ending = .failed final ↔ Fails m a s final :=
    ⟨fun ending => by simpa [ending] using ended, fun fails => (fails.run_eq output).1⟩
  have stopped (e : Error) : (run m output a s).ending = .stopped e ↔ Stops m a s e :=
    ⟨fun ending => by simpa [ending] using ended, fun stops => (stops.run_eq output).1⟩
  have crashed (e : Error) : (run m output a s).ending = .crashed e ↔ Escapes m a s e :=
    ⟨fun ending => by simpa [ending] using ended, fun escapes => escapes.run_eq output⟩
  refine ⟨failed, stopped, crashed, fun final fails => (fails.run_eq output).2,
    fun e stops => (stops.run_eq output).2, ?_, ?_, ?_⟩
  · simp only [Ending.status_eq_one_iff, failed, crashed]
  · have understood : (run m output a s).ending ≠ .misused := by
      intro ending
      simp [ending] at ended
    simp only [Ending.status_eq_two_iff, understood, false_or, stopped]
  · rw [Ending.status_eq_zero_iff]
    constructor
    · intro passed
      simp [← failed, ← stopped, ← crashed, passed]
    · rintro ⟨notFailed, notStopped, notEscaped⟩
      rcases ended with ⟨_, fails, -⟩ | ⟨_, stops, -⟩ | ⟨_, escapes, -⟩ | passed
      · exact absurd ⟨_, fails⟩ notFailed
      · exact absurd ⟨_, stops⟩ notStopped
      · exact absurd ⟨_, escapes⟩ notEscaped
      · exact passed

end Law

section Sample

open LintRun.FileTree

/-- A machine with a file to lint, and a project file with these bytes. -/
def withProject (b : ByteArray) : Machine Unit :=
  ⟨⟨⟨[(["a.ts"], .file ByteArray.empty false), ([Settings.filename], .file b false)]⟩, [], ""⟩,
    ["s"], fun _ => none⟩

def bareArguments : Arguments :=
  ⟨[⟨.relative, ["a.ts"]⟩], none, none, none, none, false, none, none, none, none, none, false⟩

variable (b : ByteArray)

/-- The reader of its command lines. -/
def projectReader : Reader := .ofTree (withProject b).space.tree (withProject b).space.cwd

/-- A command line is understood if its items are, and only name the file. -/
theorem ofList?_of_items {rest : List String} {is : List CommandLine.Item} {a : Arguments}
    (split : CommandLine.items none rest = some is)
    (told : Arguments.ofItems? (projectReader b) is = some a)
    (files : CommandLine.filesOf is = ["a.ts"]) :
    Arguments.ofList? (projectReader b) ("check" :: rest) = some a := by
  have walked : (withProject b).space.tree.walk [] (Path.toString ⟨.relative, ["a.ts"]⟩) =
      .ok (["a.ts"], .file ByteArray.empty false) :=
    walk_of_leads (by decide) (by decide) (.file (by decide) rfl)
      (Nat.zero_le linkLimit)
  have noNul : Path.holdsNul ⟨.relative, ["a.ts"]⟩ = false := by decide
  have path : Path.ofString "a.ts" = ⟨.relative, ["a.ts"]⟩ := by decide
  have there : (projectReader b).takesFile "a.ts" = true := by
    refine Reader.takesFile_ofTree ?_
    rw [path, FileTree.isFile, noNul, show (withProject b).space.cwd = [] from rfl, walked]
    rfl
  exact Arguments.ofList?_eq_some.mpr ⟨_, _, rfl, split, told, by simp [files],
    by simpa [files] using there⟩

/-- The command line is understood. -/
theorem ofList?_withProject :
    Arguments.ofList? (projectReader b) ["check", "a.ts"] = some bareArguments := by
  have file : CommandLine.Argument.ofText "a.ts" = .item (.file "a.ts") := rfl
  have items : CommandLine.items none ["a.ts"] = some [.file "a.ts"] := by
    simp [CommandLine.items, file]
  have path : Path.ofString "a.ts" = ⟨.relative, ["a.ts"]⟩ := by decide
  have told : Arguments.ofItems? (projectReader b) [.file "a.ts"] = some bareArguments := by
    simp [Arguments.ofItems?, CommandLine.valueOf, CommandLine.readOption, CommandLine.filesOf,
      CommandLine.failsRunOf, bareArguments, path]
  exact ofList?_of_items b items told rfl

theorem resolve_withProject :
    (withProject b).space.tree.resolve (withProject b).space.cwd (bareArguments.root.getD .here) =
      .ok ⟨.root, []⟩ := by
  have noNul : Path.holdsNul ⟨.relative, []⟩ = false := rfl
  rw [show bareArguments.root.getD .here = ⟨.relative, []⟩ from rfl, resolve, noNul]
  simp only [resolveFrom]
  rfl

/-- The project file is there, and has its bytes. -/
theorem read_withProject :
    let file := Path.join ⟨.root, []⟩ (Path.ofString Settings.filename)
    (withProject b).space.tree.isFile (withProject b).space.cwd file = .ok true ∧
      (withProject b).space.tree.read (withProject b).space.cwd file = .ok b := by
  have spelled : Path.join ⟨.root, []⟩ (Path.ofString Settings.filename) =
      ⟨.root, [Settings.filename]⟩ := by decide
  have walked : (withProject b).space.tree.walk (withProject b).space.cwd
      (Path.toString ⟨.root, [Settings.filename]⟩) = .ok ([Settings.filename], .file b false) :=
    walk_of_leads (by decide) (by decide) (.file (by decide) rfl)
      (Nat.zero_le linkLimit)
  have noNul : Path.holdsNul ⟨.root, [Settings.filename]⟩ = false := by decide
  dsimp only
  rw [spelled, FileTree.isFile, FileTree.read, noNul, walked]
  exact ⟨rfl, rfl⟩

/-- What is said of a project file that holds nothing but a key. -/
def loneKeyWords : String := "Expected '=' after a key in a key/value pair (at end of document)"

/-- The wording of whoever says it. -/
@[reducible] def loneKeyWording : Wording :=
  { Wording.leftOut with toml := fun _ => loneKeyWords }

attribute [local instance] loneKeyWording

/-- A check is stopped by a project file that is no TOML, and says so. -/
theorem status_of_check_malformed :
    let b := Text.Utf8.encode "x"
    let report := ofCommandLine (projectReader b) (withProject b) .plain ["check", "a.ts"] ()
    report.ending.status = 2 ∧ ∃ earlier, report.events =
      earlier ++ [.log .error ("Unable to read /pyproject.toml: " ++ loneKeyWords)] := by
  dsimp only
  have malformed : Configuration.readToml Depth.project (Text.Utf8.encode "x") =
      .error (.toml loneKeyWords) := by
    have text : Text.Utf8.decode (Text.Utf8.encode "x") = .ok "x" := Text.Utf8.decode_encode "x"
    have read : Toml.read Depth.project "x" = .error .malformed := by
      have counted : (Toml.read Depth.project "x").map List.length = .error .malformed := by
        decide +kernel
      exact map_eq_error.mp counted
    simp only [Configuration.readToml, text, read]
    rfl
  obtain ⟨there, read⟩ := read_withProject (Text.Utf8.encode "x")
  have named : (Path.join ⟨.root, []⟩ (Path.ofString Settings.filename)).toString =
      "/pyproject.toml" := by decide
  have stops : Stops (withProject (Text.Utf8.encode "x")) bareArguments ()
      (.config (.projectUnusable "/pyproject.toml" (.toml loneKeyWords))) := by
    refine .settings (resolve_withProject _) ?_
    simp only [Settings.load, there, read, Settings.ofBytes, malformed, named]
  obtain ⟨-, -, -, -, words, -, two, -⟩ :=
    status_of_check (projectReader (Text.Utf8.encode "x")) (withProject (Text.Utf8.encode "x"))
      .plain
      ["check", "a.ts"] _ () (ofList?_withProject (Text.Utf8.encode "x"))
  refine ⟨two.mpr ⟨_, stops⟩, ?_⟩
  obtain ⟨earlier, last⟩ := words _ stops
  exact ⟨earlier, last⟩

/-- A check whose project file is not UTF-8 ends with the status of a failed one, though it never
looked at the file, and without a word. -/
theorem undecodable_project_looks_failed :
    let m := withProject ⟨#[0xff]⟩
    let c := projectReader ⟨#[0xff]⟩
    let report := ofCommandLine c m .plain ["check", "a.ts"] ()
    Arguments.ofList? c ["check", "a.ts"] = some bareArguments ∧
      report.ending.status = 1 ∧ report.events = [] ∧
      ∀ final, report.ending ≠ .failed final ∧ ¬ Fails m bareArguments () final := by
  intro m c report
  have told := ofList?_withProject ⟨#[0xff]⟩
  obtain ⟨there, read⟩ := read_withProject ⟨#[0xff]⟩
  have faulty : Text.Utf8.decode ⟨#[0xff]⟩ = .error ⟨0, [0xff], .invalidStart⟩ := by
    decide +kernel
  have untold : Settings.Untold Depth.project m.space.tree m.space.cwd ⟨.root, []⟩
      (.undecodable ⟨0, [0xff], .invalidStart⟩) := .undecodable there _ read _ faulty
  have unprepared : prepare m bareArguments = .error (.undecodable ⟨0, [0xff], .invalidStart⟩) :=
    prepare_eq_error.mpr (.inr ⟨_, resolve_withProject _,
      .inl (settings_eq_error.mpr (.inl (Settings.load_of_untold untold)))⟩)
  have whole : report = stopped (Console.ofOutput .plain false) ()
      (.undecodable ⟨0, [0xff], .invalidStart⟩) := by
    simp only [report, ofCommandLine, m, c, told]
    exact run_of_prepare_error .plain unprepared
  rw [whole]
  refine ⟨told, rfl, rfl, ?_⟩
  intro final
  refine ⟨nofun, ?_⟩
  intro fails
  have ending := (fails.run_eq .plain).1
  rw [run_of_prepare_error .plain unprepared] at ending
  cases ending

end Sample

end Check

end LintRun
