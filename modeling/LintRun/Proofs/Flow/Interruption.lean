import LintRun.Proofs.Flow.Pass
import LintRun.Proofs.Judging.Verdict

/-!
# Interrupted runs

A run ends with the verdict, or a failure of its reporter or its error handler, or it is interrupted
while a record is handled: the linting stage fails on the record, or the payload cannot be decoded.
An interrupted run has done what the pass over the records before does, and then only things about
the record it is interrupted at (`run_interrupted`).
-/
namespace LintRun

/-- The notice of an abandoned record is never taken for a final message. -/
theorem verdictWords_ne_abandoned (summarizes : Bool) (fs : List Finding) (ignored : Nat)
    (r : Record) : Event.log .info (verdictWords summarizes fs ignored) ≠ Linter.abandoned r := by
  have failed := head?_verdictWords summarizes fs ignored
  have left : (s!"Lint of {r.relative} abandoned; the engine was not notified.").toList.head? =
      some 'L' := by
    rw [String.append_assoc]
    exact head?_ofList_append _ _ _
  intro same
  rw [(Event.log.inj same).2, left] at failed
  cases failed

/-- What is said of a record while it is linted is no final message. -/
theorem Event.IsOf.ne_verdictWords {r : Record} {x : Event} (about : x.IsOf r)
    (summarizes : Bool) (fs : List Finding) (ignored : Nat) :
    x ≠ .log .info (verdictWords summarizes fs ignored) := by
  rintro rfl
  generalize shown : Event.log .info (verdictWords summarizes fs ignored) = y at about
  cases about with
  | abandoned => exact verdictWords_ne_abandoned summarizes fs ignored r shown
  | _ => cases shown

variable {σ : Type}

/-- The reporting stage stops at a record because its payload cannot be decoded, or because the
reporter does not return. -/
theorem Judge.handle_error_cases [Wording] (j : Judge σ) (t : Tally) (s : σ) (r : Record) (e : Error)
    (failed : (j.handle t s r).error = some e) :
    r.findings = .error e ∨
      ∃ b, b.record = some r ∧ (j.report b s).2.written.error = some e := by
  unfold handle at failed
  split at failed
  · next undecodable =>
    cases failed
    exact .inl undecodable
  · next fs _ =>
    split at failed
    · cases failed
    · refine .inr ⟨⟨(t.record r fs).reportable fs, some r, some j.options⟩, rfl, ?_⟩
      unfold deliver at failed
      dsimp only at failed
      split at failed
      · cases failed
      · split at failed
        · next ended =>
          cases failed
          exact ended
        · cases failed

namespace Flow

/-- A record that comes in a state interrupts a run, and is left as it is then: the linting stage
fails on it by itself, or hands it on with a payload that cannot be decoded. -/
inductive Interrupts [Wording] (f : Flow σ) (s : σ) (r : Record) (e : Error) : Record → Prop where
  | linting (failed : (f.linter.handle r s).fate = .failed e)
    (returns : ∀ last, ¬ f.linter.HandlerEnds r s e last) : Interrupts f s r e r
  | decoding (linted : Record) (handed : (f.linter.handle r s).fate = .emitted linted)
    (undecodable : linted.findings = .error e) : Interrupts f s r e linted

/-- The error handler fails on a record, or the reporter on findings of it. -/
inductive Breaks (f : Flow σ) (s : σ) (r : Record) (e : Error) : Prop where
  | handler (last : σ) (ends : f.linter.HandlerEnds r s e last)
  | reporter (linted : Record) (b : Batch) (handed : (f.linter.handle r s).fate = .emitted linted)
    (about : b.record = some linted)
    (ended : (f.judge.report b (f.linter.handle r s).state).2.written.error = some e)

section Step

variable [Wording] {f : Flow σ} {s : σ} {r left : Record} {e : Error}

/-- No interruption is a verdict. -/
theorem Interrupts.ne_failedRun (interrupts : f.Interrupts s r e left) (verdict : Summary) :
    e ≠ .failedRun verdict := by
  cases interrupts with
  | linting failed returns =>
    exact (f.linter.handle_visits r s).failed_ne_failedRun e failed returns verdict
  | decoding linted _ undecodable =>
    rintro rfl
    unfold Record.findings at undecodable
    split at undecodable
    · cases undecodable
    · split at undecodable <;> cases undecodable

/-- A record that interrupts keeps its payload, unless the payload it has got cannot be decoded. -/
theorem Interrupts.left_eq (interrupts : f.Interrupts s r e left) :
    left = r ∨ left = { r with lint := left.lint } ∧ left.findings = .error e := by
  cases interrupts with
  | linting => exact .inl rfl
  | decoding _ handed undecodable =>
    exact .inr ⟨(f.linter.handle_visits r s).emitted left handed, undecodable⟩

/-- The step of a record that interrupts is its visit; nothing is counted. -/
theorem Interrupts.step_eq (interrupts : f.Interrupts s r e left) (t : Tally) :
    f.step s t r =
      ⟨⟨(f.linter.handle r s).events, [left], (f.linter.handle r s).state, some e⟩, t⟩ := by
  cases interrupts with
  | linting failed => simp [step, failed]
  | decoding _ handed undecodable => simp [step, handed, Judge.handle, undecodable]

/-- A step fails because the record interrupts, or because the error handler or the reporter fails
on it. -/
theorem step_error_cases (t : Tally) (failed : (f.step s t r).error = some e) :
    (∃ left, f.Interrupts s r e left) ∨ f.Breaks s r e := by
  unfold step at failed
  dsimp only at failed
  split at failed
  · next fate =>
    cases failed
    by_cases raises : ∃ last, f.linter.HandlerEnds r s e last
    · obtain ⟨last, ends⟩ := raises
      exact .inr (.handler last ends)
    · exact .inl ⟨r, .linting fate fun last ends => raises ⟨last, ends⟩⟩
  · cases failed
  · next linted handed =>
    have ruled : (f.judge.handle t (f.linter.handle r s).state linted).error = some e := by
      split at failed
      · next ended =>
        cases failed
        exact ended
      · cases failed
    rcases f.judge.handle_error_cases t _ linted e ruled with undecodable | ⟨b, about, ended⟩
    · exact .inl ⟨linted, .decoding linted handed undecodable⟩
    · exact .inr (.reporter linted b handed about ended)

end Step

section Run

variable [Wording] (f : Flow σ) (s : σ) (t : Tally)

/-- A pass that fails does so at one of its records. -/
theorem pass_error_cases (records : List Record) (e : Error)
    (failed : (f.pass s t records).error = some e) :
    ∃ before r later, records = before ++ r :: later ∧ (f.pass s t before).error = none ∧
      ((∃ left, f.Interrupts (f.pass s t before).state r e left) ∨
        f.Breaks (f.pass s t before).state r e) := by
  induction records generalizing s t with
  | nil => cases failed
  | cons r rest ih =>
    rw [pass_cons] at failed
    cases ending : (f.step s t r).error with
    | some e' =>
      rw [Outcome.andThen_of_error _ _ _ e' ending] at failed
      cases failed
      exact ⟨[], r, rest, rfl, rfl, f.step_error_cases t ending⟩
    | none =>
      rw [Outcome.andThen_of_none _ _ _ ending] at failed
      obtain ⟨before, r', later, rfl, reached, stops⟩ := ih _ _ failed
      refine ⟨r :: before, r', later, rfl, ?_, ?_⟩
      · rw [pass_cons, Outcome.andThen_of_none _ _ _ ending]
        exact reached
      · rw [pass_cons, Outcome.andThen_of_none _ _ _ ending]
        exact stops

/-- A run that fails is interrupted at a record, or its error handler or reporter fails there, or all
records have passed and the verdict is against them. -/
theorem run_error_cases (records : List Record) (e : Error)
    (failed : (f.run s t records).error = some e) :
    (∃ before r later, records = before ++ r :: later ∧ (f.pass s t before).error = none ∧
      ((∃ left, f.Interrupts (f.pass s t before).state r e left) ∨
        f.Breaks (f.pass s t before).state r e)) ∨
    ((f.pass s t records).error = none ∧
      (f.judge.options.verdict (f.pass s t records).tally).2 = some e) := by
  rw [run_eq_pass] at failed
  cases ending : (f.pass s t records).error with
  | some e' =>
    rw [Outcome.andThen_of_error _ _ _ e' ending] at failed
    cases failed
    exact .inl (f.pass_error_cases s t records e ending)
  | none =>
    rw [Outcome.andThen_of_none _ _ _ ending] at failed
    exact .inr ⟨rfl, failed⟩

/-- Without an interruption the verdict follows what a pass has done. -/
theorem run_of_pass (records : List Record) (reached : (f.pass s t records).error = none) :
    let front := f.pass s t records
    f.run s t records =
      ⟨⟨front.events ++ (f.judge.options.verdict front.tally).1, front.records, front.state,
        (f.judge.options.verdict front.tally).2⟩, front.tally⟩ := by
  rw [run_eq_pass, Outcome.andThen_of_none _ _ _ reached]
  simp [run, Judge.finish]

/-- A run that is interrupted at a record has done what the pass over the records before does, and
then what is done about the record. -/
theorem run_of_interrupts {before : List Record} {r left : Record} {e : Error}
    (reached : (f.pass s t before).error = none)
    (interrupts : f.Interrupts (f.pass s t before).state r e left) (later : List Record) :
    let front := f.pass s t before
    let now := f.linter.handle r front.state
    f.run s t (before ++ r :: later) =
      ⟨⟨front.events ++ now.events, front.records ++ left :: later, now.state, some e⟩,
        front.tally⟩ := by
  intro front now
  have stopped := interrupts.step_eq front.tally
  rw [run_append, Outcome.andThen_of_none _ _ _ reached, run_cons,
    Outcome.andThen_of_error _ _ _ e (by rw [stopped]), stopped]
  rfl

end Run

/-- A run that is interrupted at a record has done what the pass over the records before does, so
all that the run over them alone would do but for the verdict. Then there are only events about
the record itself. Whatever comes later is left as it is, and so is the record, unless its payload
could not be decoded. The tally is that of the records before, and no verdict is given. -/
theorem run_interrupted [Wording] (f : Flow σ) (s : σ) (before : List Record) (r : Record)
    (e : Error) (left : Record) (later : List Record)
    (reached : (f.pass s f.judge.start before).error = none)
    (interrupts : f.Interrupts (f.pass s f.judge.start before).state r e left) :
    let front := f.pass s f.judge.start before
    let alone := f.run s f.judge.start before
    let now := f.linter.handle r front.state
    alone.events = front.events ++ (f.judge.finish front.tally front.state).events ∧
      alone.records = front.records ∧ front.records.length = before.length ∧
      alone.tally = front.tally ∧
      (∀ x ∈ now.events, x.IsOf r) ∧
      (∀ summarizes fs ignored,
        .log .info (verdictWords summarizes fs ignored) ∉ now.events) ∧
      (∀ verdict, e ≠ .failedRun verdict) ∧
      (left = r ∨ left = { r with lint := left.lint } ∧ left.findings = .error e) ∧
      f.run s f.judge.start (before ++ r :: later) =
        ⟨⟨front.events ++ now.events, front.records ++ left :: later, now.state, some e⟩,
          front.tally⟩ := by
  intro front alone now
  have whole : alone = _ := f.run_of_pass s f.judge.start before reached
  have about := (f.linter.handle_visits r front.state).isOf
  refine ⟨by rw [whole]; rfl, by rw [whole], f.length_records_pass _ _ _, by rw [whole], about, ?_,
    interrupts.ne_failedRun, interrupts.left_eq,
    f.run_of_interrupts s f.judge.start reached interrupts later⟩
  intro summarizes fs ignored member
  exact (about _ member).ne_verdictWords summarizes fs ignored rfl

section Sample

attribute [local instance] Wording.leftOut

/-- A stream behind a record with findings: they are counted, but never judged. -/
theorem run_interrupted_behind_findings :
    let engine : Engine Unit := .callable fun _ s => (⟨.ok (.payload ⟨"", "json"⟩), 0⟩, s)
    let f : Flow Unit :=
      ⟨⟨fun _ s => (⟨.ok [], 0⟩, s), engine, none, none, none⟩, ⟨none, true, 0, false⟩⟩
    let stream : Record := ⟨⟨.root, ["b.ts"]⟩, "b.ts", .stream, none⟩
    let run := f.run () f.judge.start [.sample, stream, .sample]
    run.tally = .after 0 [.sample] ∧ foundIn [.sample] ≠ [] ∧
      run.error = some (.unsupported "Streaming not supported") ∧
      run.records = [.sample, stream, .sample] := by
  intro engine f stream run
  have ruling (s : Unit) : f.judge.handle f.judge.start s .sample =
      ⟨f.judge.turn [] s .sample, .after 0 [.sample], f.judge.stateAfter [] s .sample, none⟩ := by
    rw [Judge.start, ← Tally.after_nil]
    exact f.judge.handle_after [] s .sample Record.sample_decodes
      fun b _ => f.judge.returnsFrom_of_none b s rfl
  have front := f.step_of_emitted () f.judge.start .sample .sample rfl (by rw [ruling])
  dsimp only at front
  rw [← pass_singleton, ruling] at front
  have noHandler (s last : Unit) :
      ¬f.linter.HandlerEnds stream s (.unsupported "Streaming not supported") last := by
    rintro ⟨_, buffered, -⟩
    cases buffered
  obtain ⟨-, -, -, -, -, -, -, -, whole⟩ := run_interrupted f () [.sample] stream
    (.unsupported "Streaming not supported") stream [.sample] (by rw [front])
    (.linting rfl (noHandler _))
  have outcome : run = _ := whole
  rw [outcome, front]
  refine ⟨rfl, ?_, rfl, rfl⟩
  simp [Record.sampleFindings]

end Sample

end Flow

end LintRun
