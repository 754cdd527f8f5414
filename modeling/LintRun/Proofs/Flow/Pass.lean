import LintRun.Proofs.Judging.Passage
import LintRun.Proofs.Linting.Visit

/-!
# Runs in parts

A run as one record after the other, with what becomes of each through both stages (`step`), and
the pass over records without the verdict on them (`pass`). A run over records one after the other
parts anywhere into the pass over the first and the run over the rest (`run_append`).
-/
namespace LintRun

/-- An outcome, and the next one from where it ended; an error leaves the rest as it is. -/
def Outcome.andThen {σ : Type} (o : Outcome σ) (rest : List Record)
    (next : σ → Tally → Outcome σ) : Outcome σ :=
  match o.error with
  | some e => ⟨⟨o.events, o.records ++ rest, o.state, some e⟩, o.tally⟩
  | none =>
    let later := next o.state o.tally
    ⟨⟨o.events ++ later.events, o.records ++ later.records, later.state, later.error⟩,
      later.tally⟩

section AndThen

variable {σ : Type} (o : Outcome σ) (rest : List Record) (next : σ → Tally → Outcome σ)

theorem Outcome.andThen_of_error (e : Error) (failed : o.error = some e) :
    o.andThen rest next = ⟨⟨o.events, o.records ++ rest, o.state, some e⟩, o.tally⟩ := by
  rw [andThen, failed]

theorem Outcome.andThen_of_none (reached : o.error = none) :
    o.andThen rest next =
      ⟨⟨o.events ++ (next o.state o.tally).events, o.records ++ (next o.state o.tally).records,
        (next o.state o.tally).state, (next o.state o.tally).error⟩,
        (next o.state o.tally).tally⟩ := by
  rw [andThen, reached]

theorem Outcome.andThen_assoc (last : List Record) (final : σ → Tally → Outcome σ) :
    (o.andThen rest next).andThen last final =
      o.andThen (rest ++ last) fun s t => (next s t).andThen last final := by
  cases ending : o.error with
  | some e =>
    rw [o.andThen_of_error _ _ e ending, o.andThen_of_error _ _ e ending]
    simp [andThen]
  | none =>
    rw [o.andThen_of_none _ _ ending, o.andThen_of_none _ _ ending]
    unfold andThen
    cases (next o.state o.tally).error <;> simp

end AndThen

namespace Flow

variable [Wording] {σ : Type} (f : Flow σ)

def step (s : σ) (t : Tally) (r : Record) : Outcome σ :=
  let now := f.linter.handle r s
  match now.fate with
  | .failed e => ⟨⟨now.events, [r], now.state, some e⟩, t⟩
  | .dropped => ⟨⟨now.events, [r], now.state, none⟩, t⟩
  | .emitted linted =>
    let ruling := f.judge.handle t now.state linted
    match ruling.error with
    | some e => ⟨⟨now.events ++ ruling.events, [linted], ruling.state, some e⟩, ruling.tally⟩
    | none =>
      ⟨⟨now.events ++ ruling.events ++ [.emit linted], [linted], ruling.state, none⟩,
        ruling.tally⟩

/-- All records in order, without a verdict on them. -/
def pass (s : σ) (t : Tally) : List Record → Outcome σ
  | [] => ⟨⟨[], [], s, none⟩, t⟩
  | r :: rest => (f.step s t r).andThen rest fun s t => pass s t rest

section Parts

variable (s : σ) (t : Tally)

theorem pass_cons (r : Record) (rest : List Record) :
    f.pass s t (r :: rest) = (f.step s t r).andThen rest fun s t => f.pass s t rest := rfl

theorem pass_singleton (r : Record) : f.pass s t [r] = f.step s t r := by
  rw [pass_cons]
  unfold Outcome.andThen
  split
  · next e failed => simp [← failed]
  · next reached => simp [pass, ← reached]

/-- A record that is handed on has been through both stages. -/
theorem step_of_emitted (r linted : Record)
    (handed : (f.linter.handle r s).fate = .emitted linted)
    (reported : (f.judge.handle t (f.linter.handle r s).state linted).error = none) :
    let ruling := f.judge.handle t (f.linter.handle r s).state linted
    f.step s t r =
      ⟨⟨(f.linter.handle r s).events ++ ruling.events ++ [.emit linted], [linted], ruling.state,
        none⟩, ruling.tally⟩ := by
  simp only [step, handed, reported]

/-- A record that is handed on to a reporting stage which fails on it stops the run. -/
theorem run_of_ruled (r linted : Record) (handed : (f.linter.handle r s).fate = .emitted linted)
    (rest : List Record) {e : Error}
    (failed : (f.judge.handle t (f.linter.handle r s).state linted).error = some e) :
    let ruling := f.judge.handle t (f.linter.handle r s).state linted
    f.run s t (r :: rest) =
      ⟨⟨(f.linter.handle r s).events ++ ruling.events, linted :: rest, ruling.state, some e⟩,
        ruling.tally⟩ := by
  simp only [run, handed, failed]

theorem run_cons (r : Record) (rest : List Record) :
    f.run s t (r :: rest) = (f.step s t r).andThen rest fun s t => f.run s t rest := by
  cases fate : (f.linter.handle r s).fate with
  | failed e => simp [run, step, fate, Outcome.andThen]
  | dropped => simp [run, step, fate, Outcome.andThen]
  | emitted linted =>
    cases ending : (f.judge.handle t (f.linter.handle r s).state linted).error with
    | some e => simp [run, step, fate, ending, Outcome.andThen]
    | none => simp [run, step, fate, ending, Outcome.andThen]

/-- A run is the pass over its first records, and the run over the others from there. -/
theorem run_append (first second : List Record) :
    f.run s t (first ++ second) =
      (f.pass s t first).andThen second fun s t => f.run s t second := by
  induction first generalizing s t with
  | nil => rfl
  | cons r rest ih =>
    rw [List.cons_append, run_cons, pass_cons, Outcome.andThen_assoc]
    simp only [ih]

/-- A run whose linting stage fails on a record has done what the pass over the records before
does, and then what that stage does about the record. -/
theorem run_of_failed {before : List Record} {r : Record} {e : Error}
    (reached : (f.pass s t before).error = none)
    (failed : (f.linter.handle r (f.pass s t before).state).fate = .failed e) (later : List Record) :
    let front := f.pass s t before
    let now := f.linter.handle r front.state
    f.run s t (before ++ r :: later) =
      ⟨⟨front.events ++ now.events, front.records ++ r :: later, now.state, some e⟩,
        front.tally⟩ := by
  rw [run_append, Outcome.andThen_of_none _ _ _ reached]
  simp only [run, failed]

/-- A run is the pass over its records, and the verdict. -/
theorem run_eq_pass (records : List Record) :
    f.run s t records = (f.pass s t records).andThen [] fun s t => f.run s t [] := by
  have whole := f.run_append s t records []
  rwa [List.append_nil] at whole

theorem length_records_step (r : Record) : (f.step s t r).records.length = 1 := by
  unfold step
  dsimp only
  split
  · rfl
  · rfl
  · split <;> rfl

/-- A pass keeps the number of records. -/
theorem length_records_pass (records : List Record) :
    (f.pass s t records).records.length = records.length := by
  induction records generalizing s t with
  | nil => rfl
  | cons r rest ih =>
    rw [pass_cons]
    cases ending : (f.step s t r).error with
    | some e => simp [Outcome.andThen_of_error _ _ _ e ending, f.length_records_step, Nat.add_comm]
    | none => simp [Outcome.andThen_of_none _ _ _ ending, f.length_records_step, ih, Nat.add_comm]

end Parts

end Flow

end LintRun
