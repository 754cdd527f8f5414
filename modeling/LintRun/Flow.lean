import LintRun.Judging
import LintRun.Linting

/-!
# Flow

A whole run: each record is linted and then reported before the next one is looked at, and the run
is judged after the last.
-/
namespace LintRun

/-- The two stages of a run. All parts supplied from outside have one state together. -/
structure Flow (σ : Type) where
  linter : Linter σ
  judge : Judge σ

/-- What a run does: the course of its records, and the tally at its end. -/
structure Outcome (σ : Type) extends Course σ where
  tally : Tally

namespace Flow

variable [Wording] {σ : Type}

/-- All records in order, from a state and a tally on. The records are different objects; those that
may be the same lie in a store (`Flow.runIn`). -/
def run (f : Flow σ) (s : σ) (t : Tally) : List Record → Outcome σ
  | [] =>
    let verdict := f.judge.finish t s
    ⟨⟨verdict.events, [], verdict.state, verdict.error⟩, verdict.tally⟩
  | r :: rest =>
    let now := f.linter.handle r s
    match now.fate with
    | .failed e => ⟨⟨now.events, r :: rest, now.state, some e⟩, t⟩
    | .dropped =>
      let later := f.run now.state t rest
      ⟨⟨now.events ++ later.events, r :: later.records, later.state, later.error⟩, later.tally⟩
    | .emitted linted =>
      let ruling := f.judge.handle t now.state linted
      match ruling.error with
      | some e =>
        ⟨⟨now.events ++ ruling.events, linted :: rest, ruling.state, some e⟩, ruling.tally⟩
      | none =>
        let later := f.run ruling.state ruling.tally rest
        ⟨⟨now.events ++ ruling.events ++ .emit linted :: later.events, linted :: later.records,
          later.state, later.error⟩, later.tally⟩

end Flow

def emitted (events : List Event) : List Record :=
  events.filterMap fun
    | .emit r => some r
    | _ => none

end LintRun
