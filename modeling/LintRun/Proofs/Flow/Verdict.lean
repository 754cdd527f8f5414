import LintRun.Proofs.Flow.Interruption
import LintRun.Proofs.Linting.Arrivals

/-!
# The verdict on a run

A pass that comes to its end has counted exactly the records that it has handed on, if its reporter
leaves its list as long as it got it (`Flow.tally_pass`). So the verdict on a run is told by the
findings of these records: it is the error that fails the run, or a line on the log, or nothing, and
if the findings cannot be put into words, an error that tells so.
-/
namespace LintRun

/-- A reporter whose list is always as long when it is done as it was before. -/
def Reporter.KeepsCount {σ : Type} (write : Reporter σ) : Prop :=
  ∀ b s, (write b s).left.length = b.findings.length

theorem ReporterName.keepsCount {σ : Type} (name : ReporterName) :
    (name.reporter : Reporter σ).KeepsCount := fun _ _ => rfl

variable {σ : Type}

/-- A record that the stage does not stop at has its turn, if its reporter leaves its list as long
as it got it. -/
theorem Judge.handle_of_reached [Wording] (j : Judge σ)
    (keeps : ∀ write, j.reporter = some write → write.KeepsCount) (before : List Record) (s : σ)
    (r : Record) (reached : (j.handle (.after j.options.limit before) s r).error = none) :
    j.handle (.after j.options.limit before) s r =
      ⟨j.turn before s r, .after j.options.limit (before ++ [r]), j.stateAfter before s r,
        none⟩ := by
  have decodes : r.Decodes := by
    cases decoded : r.findings with
    | ok fs => exact ⟨fs, Record.findings_eq_ok_iff.mp decoded⟩
    | error e => simp [handle, decoded] at reached
  by_cases nothing : j.dueFindings before r = []
  · rw [j.handle_of_not_due before s r decodes nothing]
    simp [nothing, turn, stateAfter]
  · refine j.handle_of_returnsFrom before s r decodes nothing ⟨?_, ?_⟩
    · cases ending : (j.report (j.dueBatch before r) s).2.written.error with
      | none => rfl
      | some e => simp [j.handle_of_error before s r decodes nothing ending] at reached
    · cases chosen : j.reporter with
      | none => simp [report, chosen]
      | some write => simpa [report, chosen] using keeps write chosen _ _

namespace Flow

variable [Wording] (f : Flow σ) (keeps : ∀ write, f.judge.reporter = some write → write.KeepsCount)
  (s : σ)

include keeps

/-- A step that goes well counts the record if it is handed on. -/
theorem tally_step (before : List Record) (r : Record)
    (reached : (f.step s (.after f.judge.options.limit before) r).error = none) :
    let now := f.step s (.after f.judge.options.limit before) r
    now.tally = .after f.judge.options.limit (before ++ emitted now.events) := by
  intro now
  have quiet := f.linter.emitted_visit ⟨r, s⟩
  simp only [Linter.visit] at quiet
  cases fate : (f.linter.handle r s).fate with
  | failed e => simp [step, fate] at reached
  | dropped => simp [now, step, fate, quiet]
  | emitted linted =>
    let next := (f.linter.handle r s).state
    cases ending : (f.judge.handle (.after f.judge.options.limit before) next linted).error with
    | some e => simp [step, fate, next, ending] at reached
    | none =>
      have turn := f.judge.handle_of_reached keeps before next linted ending
      simp only [now, f.step_of_emitted s _ r linted fate ending]
      simp [next, turn, quiet, f.judge.emitted_turn]

/-- A pass that comes to its end has counted the records that it has handed on. -/
theorem tally_pass (before records : List Record)
    (reached : (f.pass s (.after f.judge.options.limit before) records).error = none) :
    let front := f.pass s (.after f.judge.options.limit before) records
    front.tally = .after f.judge.options.limit (before ++ emitted front.events) := by
  induction records generalizing s before with
  | nil => simp [pass, emitted]
  | cons r rest ih =>
    rw [pass_cons] at reached ⊢
    cases ending : (f.step s (.after f.judge.options.limit before) r).error with
    | some e => simp [Outcome.andThen_of_error _ _ _ e ending] at reached
    | none =>
      have counted := f.tally_step keeps s before r ending
      rw [Outcome.andThen_of_none _ _ _ ending] at reached ⊢
      dsimp only at reached counted ⊢
      rw [counted] at reached ⊢
      rw [ih _ _ reached, emitted_append, List.append_assoc]

section Start

variable (records : List Record)

theorem tally_pass_start (reached : (f.pass s f.judge.start records).error = none) :
    (f.pass s f.judge.start records).tally =
      .after f.judge.options.limit (emitted (f.pass s f.judge.start records).events) := by
  rw [Judge.start, ← Tally.after_nil] at reached ⊢
  simpa using f.tally_pass keeps s [] records reached

/-- A run whose records have all passed ends with the verdict on those that it has handed on. -/
theorem run_of_reached (reached : (f.pass s f.judge.start records).error = none) :
    let front := f.pass s f.judge.start records
    let verdict := f.judge.options.verdict (.after f.judge.options.limit (emitted front.events))
    f.run s f.judge.start records =
      ⟨⟨front.events ++ verdict.1, front.records, front.state, verdict.2⟩, front.tally⟩ := by
  intro front verdict
  rw [f.run_of_pass s f.judge.start records reached, f.tally_pass_start keeps s records reached]

omit keeps in
/-- A run that stops at a record has done just what the pass over its records does. -/
theorem run_of_stopped (t : Tally) (e : Error) (stopped : (f.pass s t records).error = some e) :
    f.run s t records = f.pass s t records := by
  rw [run_eq_pass, Outcome.andThen_of_error _ _ _ e stopped, List.append_nil, ← stopped]

end Start

end Flow

end LintRun
