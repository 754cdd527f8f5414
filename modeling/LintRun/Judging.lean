import LintRun.Reporter
import LintRun.Tally

/-!
# Reporting and judging

The second stage of a run looks at each record, reports its findings, and passes it on as it is.
Findings never stop the records; they are judged once all have passed. With a limit, the findings
beyond it are not reported, and a notice tells when it is reached.
-/
namespace LintRun

variable [Wording]

/-- The stage that reports and judges; `σ` is the state of the reporter. -/
structure Judge (σ : Type) where
  reporter : Option (Reporter σ)
  options : ReportOptions

/-- What the stage does for one record, or at the end: events, the tally and the state after them,
and the error that ends the run, if any. -/
structure Ruling (σ : Type) where
  events : List Event
  tally : Tally
  state : σ
  error : Option Error

/-- The verdict on a run: findings fail it, or are summed up on the log, or neither. The final
message is put together in any case. -/
def ReportOptions.verdict (o : ReportOptions) (t : Tally) : List Event × Option Error :=
  match t.summary? o.summarizes with
  | .error x => ([], some (.ofExcess x))
  | .ok none => ([], none)
  | .ok (some final) =>
    if o.failsRun then ([], some (.failedRun final))
    else (if o.summarizes then [.log .info final.message] else [], none)

namespace Judge

variable {σ : Type}

def start (j : Judge σ) : Tally := .start j.options.limit

/-- The call of the reporter on a batch, with its events. Without a reporter nothing happens. -/
def report (j : Judge σ) (b : Batch) (s : σ) : List Event × Handling σ :=
  match j.reporter with
  | none => ([], ⟨⟨[], none⟩, b.findings, s⟩)
  | some write =>
    let call := write b s
    (.report b :: call.written.lines.map fun l => .log l.channel l.words, call)

def notice (limit : Int) : Event :=
  .log .info s!"More than {limit} failures reported. Turning off reporter."

/-- Reports findings of a record. They count as reported once the reporter is done with them: as
many as are then left in the list that it got. -/
def deliver (j : Judge σ) (t : Tally) (s : σ) (r : Record) (fs : List Finding) : Ruling σ :=
  let t := t.record r fs
  let batch := t.reportable fs
  if batch.isEmpty then ⟨[], t, s, none⟩
  else
    let (events, call) := j.report ⟨batch, some r, some j.options⟩ s
    match call.written.error with
    | some e => ⟨events, t, call.state, some e⟩
    | none =>
      let (t, reached) := t.markReported call.left.length
      ⟨events ++ (if reached then [notice j.options.limit] else []), t, call.state, none⟩

/-- Reports a record; one that was never linted, or has no findings, passes silently. -/
def handle (j : Judge σ) (t : Tally) (s : σ) (r : Record) : Ruling σ :=
  match r.findings with
  | .error e => ⟨[], t, s, some e⟩
  | .ok fs => if fs.isEmpty then ⟨[], t, s, none⟩ else j.deliver t s r fs

/-- Judges the run. The reporter has no part in it. -/
def finish (j : Judge σ) (t : Tally) (s : σ) : Ruling σ :=
  let (events, error) := j.options.verdict t
  ⟨events, t, s, error⟩

/-- All records in order, each handed on after it was reported, then the verdict. An error stops
the stage at its record. -/
def process (j : Judge σ) (t : Tally) (s : σ) : List Record → Ruling σ
  | [] => j.finish t s
  | r :: rest =>
    let now := j.handle t s r
    match now.error with
    | some e => ⟨now.events, now.tally, now.state, some e⟩
    | none =>
      let later := j.process now.tally now.state rest
      ⟨now.events ++ .emit r :: later.events, later.tally, later.state, later.error⟩

end Judge

end LintRun
