import Mathlib.Data.List.Forall2
import LintRun.Proofs.Flow.Apart
import LintRun.Proofs.Flow.Pass
import LintRun.Proofs.Judging.Verdict
import LintRun.Proofs.Linting.Partition

/-!
# The stages of a run

A run over different records, whose reporter shares no state with the parts that the linting stage
calls, does what its stages do one after the other, only that it takes the records one by one. What
the reporting stage does, and how it ends, is what it does with the records that the linting stage
hands on when it runs alone (`run_followsStages`). While the reporter returns, the run is one
stretch for each record, which joins what either stage does for it, and the verdict (`run_after`).
A record that comes twice is linted again between its two reports, so that the stages cannot do
their work one after the other (`repeated_record_is_reported_between`).
-/
namespace LintRun

/-- An event of the parts that the linting stage calls. -/
def Event.isLinting : Event → Bool
  | .resolve _ | .request _ | .refuse .. => true
  | _ => false

/-- An event of the reporting stage: a call of the reporter, or a line on the log that is not there
for debugging. -/
def Event.isJudging : Event → Bool
  | .report _ => true
  | .log c _ => c ≠ .debug
  | _ => false

/-- An event of the reporting stage for a record, or at the end, is a call of the reporter on it or
a line on the log. -/
inductive Event.IsReportOn (handed : Option Record) : Event → Prop where
  | report (b : Batch) (about : b.record = handed) : IsReportOn handed (.report b)
  | log (c : Channel) (words : String) : IsReportOn handed (.log c words)

section Reports

variable {handed : Option Record} {events : List Event}
  (reports : ∀ e ∈ events, e.IsReportOn handed)

include reports

theorem emitted_reports : emitted events = [] := by
  apply List.filterMap_eq_nil_iff.mpr
  intro e member
  cases reports e member <;> rfl

theorem linting_reports : events.filter Event.isLinting = [] := by
  apply List.filter_eq_nil_iff.mpr
  intro e member
  cases reports e member <;> simp [Event.isLinting]

end Reports

namespace Judge

variable {τ : Type} (j : Judge τ)

theorem report_isReportOn (b : Batch) (u : τ) :
    ∀ e ∈ (j.report b u).1, e.IsReportOn b.record := by
  intro e member
  unfold report at member
  split at member
  · cases member
  · rcases List.mem_cons.mp member with rfl | line
    · exact .report b rfl
    · obtain ⟨line, -, rfl⟩ := List.mem_map.mp line
      exact .log _ _

theorem report_notice_isReportOn (b : Batch) (u : τ) (reached : Prop) [Decidable reached] :
    ∀ e ∈ (j.report b u).1 ++ (if reached then [notice j.options.limit] else []),
      e.IsReportOn b.record := by
  intro e member
  rcases List.mem_append.mp member with called | noticed
  · exact j.report_isReportOn b u e called
  · split at noticed
    · obtain rfl := List.mem_singleton.mp noticed
      exact .log _ _
    · cases noticed

theorem turn_isReportOn (before : List Record) (u : τ) (r : Record) :
    ∀ e ∈ j.turn before u r, e.IsReportOn (some r) := by
  intro e member
  unfold turn at member
  split at member
  · cases member
  · exact j.report_notice_isReportOn (j.dueBatch before r) u _ e member

theorem verdict_isReportOn (o : ReportOptions) (t : Tally) :
    ∀ e ∈ (o.verdict t).1, e.IsReportOn none := by
  intro e member
  obtain ⟨words, rfl⟩ := events_verdict o t e member
  exact .log _ _

variable [Wording]

theorem handle_isReportOn (t : Tally) (u : τ) (r : Record) :
    ∀ e ∈ (j.handle t u r).events, e.IsReportOn (some r) := by
  intro e member
  unfold handle at member
  split at member
  · cases member
  · split at member
    · cases member
    · unfold deliver at member
      dsimp only at member
      split at member
      · cases member
      · split at member
        · exact j.report_isReportOn _ u e member
        · exact j.report_notice_isReportOn _ u _ e member

/-- A stage that ends well has handed on all records. -/
theorem emitted_process_of_none (t : Tally) (u : τ) (records : List Record)
    (reached : (j.process t u records).error = none) :
    emitted (j.process t u records).events = records := by
  induction records generalizing t u with
  | nil => exact emitted_reports (verdict_isReportOn j.options t)
  | cons r rest ih =>
    unfold process at reached ⊢
    dsimp only at reached ⊢
    cases ending : (j.handle t u r).error with
    | some e => simp [ending] at reached
    | none =>
      rw [ending] at reached
      simp [emitted_reports (j.handle_isReportOn t u r), ih _ _ reached]

end Judge

namespace Linter

variable {σ : Type} (l : Linter σ) (a : Arrival σ)

/-- A visit that does not stop its run writes to the log only for debugging. -/
theorem judging_visit (passes : (l.visit a).Passes) :
    (l.visit a).events.filter Event.isJudging = [] := by
  apply List.filter_eq_nil_iff.mpr
  intro e member
  have visits := l.handle_visits a.record a.state
  unfold visit at passes member
  generalize l.handle a.record a.state = v at visits passes member
  cases visits with
  | skipped =>
    obtain rfl := List.mem_singleton.mp member
    simp [Event.isJudging]
  | streaming => cases member
  | dropped =>
    simp only [List.mem_cons, List.not_mem_nil, or_false] at member
    rcases member with rfl | rfl <;> simp [Event.isJudging]
  | linted =>
    simp only [requests, List.mem_append, List.mem_cons, List.mem_map, List.not_mem_nil,
      or_false] at member
    rcases member with (rfl | ⟨q, -, rfl⟩) | rfl <;> simp [Event.isJudging]
  | raised => exact absurd (fail_fate _ _ _ _) (passes _)
  | unresolved => exact absurd (fail_fate _ _ _ _) (passes _)
  | unbuffered => exact absurd (fail_fate _ _ _ _) (passes _)
  | refused => exact absurd (fail_fate _ _ _ _) (passes _)

end Linter

/-- What a run does, what its linting stage does alone, and what its reporting stage does with the
records that the linting stage hands on: the run ends like the reporting stage, hands on the same
records, and does the same for them; what the linting stage does in it is a front part of what it
does alone. -/
structure FollowsStages {τ : Type} (events : List Event) (error : Option Error) (tally : Tally)
    (alone : List Event) (judged : Ruling τ) : Prop where
  error : error = judged.error
  tally : tally = judged.tally
  handedOn : emitted events = emitted judged.events
  judging : events.filter Event.isJudging = judged.events.filter Event.isJudging
  linting : events.filter Event.isLinting <+: alone.filter Event.isLinting

/-- What a run does for one record: the events of either stage, and the record that is handed on,
if any. -/
structure Stretch where
  linting : List Event
  judging : List Event
  handed : Option Record

namespace Stretch

def events (x : Stretch) : List Event := x.linting ++ x.judging ++ (x.handed.map .emit).toList

def linted (x : Stretch) : List Event := x.linting ++ (x.handed.map .emit).toList

def judged (x : Stretch) : List Event := x.judging ++ (x.handed.map .emit).toList

/-- A stretch is about a record: the linting stage handles that record, the reporting stage reports
on it, if it is handed on at all, and it is handed on with another payload at most. -/
structure IsFor (r : Record) (x : Stretch) : Prop where
  linting : ∀ e ∈ x.linting, e.IsOf r
  judging : ∀ e ∈ x.judging, e.IsReportOn x.handed
  dropped : x.handed = none → x.judging = []
  handed : ∀ linted, x.handed = some linted → linted = { r with lint := linted.lint }

end Stretch

namespace Flow

variable {σ τ : Type} (l : Linter σ) (j : Judge τ)

/-- Whatever the reporter does, a run follows its stages. -/
theorem run_followsStages [Wording] (s : σ) (u : τ) (t : Tally) (records : List Record)
    (completes : (l.process s records).error = none) :
    let run := (apart l j).run (u, s) t records
    FollowsStages run.events run.error run.tally (l.process s records).events
      (j.process t u (emitted (l.process s records).events)) := by
  induction records generalizing s u t with
  | nil =>
    have silent := linting_reports (Judge.verdict_isReportOn j.options t)
    exact ⟨rfl, rfl, rfl, rfl, by simp [run, apart, Judge.beside, Judge.finish, silent]⟩
  | cons r rest ih =>
    have passes : (l.handle r s).Passes :=
      l.passes_of_process s _ completes ⟨r, s⟩ (by simp [Linter.arrivals])
    have quiet := l.emitted_visit ⟨r, s⟩
    have unjudged := l.judging_visit ⟨r, s⟩ passes
    simp only [Linter.visit] at quiet unjudged
    rw [l.process_cons s rest r passes] at completes ⊢
    cases fate : (l.handle r s).fate with
    | failed e => exact absurd fate (passes e)
    | dropped =>
      obtain ⟨error, tally, handedOn, judging, linting⟩ := ih _ u t completes
      have turn : l.turn ⟨r, s⟩ = (l.handle r s).events := by
        simp [Linter.turn, Linter.visit, Visit.turn, Visit.handed, fate]
      simp only [run, linter_apart, Linter.handle_beside, Visit.beside, fate, turn, emitted_append,
        quiet, List.nil_append]
      refine ⟨error, tally, ?_, ?_, ?_⟩
      · simpa [quiet] using handedOn
      · simpa [unjudged] using judging
      · simpa [List.prefix_append_right_inj] using linting
    | emitted linted =>
      have turn : l.turn ⟨r, s⟩ = (l.handle r s).events ++ [.emit linted] := by
        simp [Linter.turn, Linter.visit, Visit.turn, Visit.handed, fate]
      have reports := j.handle_isReportOn t u linted
      have silent := emitted_reports reports
      have unlinted := linting_reports reports
      simp only [run, linter_apart, judge_apart, Linter.handle_beside, Judge.handle_beside,
        Visit.beside, fate, turn, List.append_assoc, emitted_append, quiet, List.nil_append,
        List.singleton_append, emitted_emit, Judge.process]
      cases ending : (j.handle t u linted).error with
      | some e =>
        refine ⟨rfl, rfl, ?_, ?_, ?_⟩
        · simp [quiet]
        · simp [unjudged]
        · simp [unlinted]
      | none =>
        obtain ⟨error, tally, handedOn, judging, linting⟩ := ih _ _ _ completes
        refine ⟨error, tally, ?_, ?_, ?_⟩
        · simpa [quiet, silent] using handedOn
        · simpa [unjudged, Event.isJudging] using judging
        · simpa [unlinted, Event.isLinting, List.prefix_append_right_inj] using linting

/-- The stretches of records that arrive when the records `before` have been handed on. -/
def stretches (before : List Record) (u : τ) : List (Arrival σ) → List Stretch
  | [] => []
  | a :: rest =>
    let now := l.visit a
    match now.handed with
    | some r =>
      ⟨now.events, j.turn before u r, some r⟩ ::
        stretches (before ++ [r]) (j.stateAfter before u r) rest
    | none => ⟨now.events, [], none⟩ :: stretches before u rest

/-- The linting stage does its part of the stretches. -/
theorem linted_stretches (before : List Record) (u : τ) (arrivals : List (Arrival σ)) :
    (stretches l j before u arrivals).flatMap Stretch.linted = arrivals.flatMap l.turn := by
  induction arrivals generalizing before u with
  | nil => rfl
  | cons a rest ih =>
    cases handed : (l.visit a).handed with
    | some r => simp [stretches, handed, ih, Stretch.linted, Linter.turn, Visit.turn]
    | none => simp [stretches, handed, ih, Stretch.linted, Linter.turn, Visit.turn]

/-- The reporting stage does its part of the stretches. -/
theorem judged_stretches (before : List Record) (u : τ) (arrivals : List (Arrival σ)) :
    (stretches l j before u arrivals).flatMap Stretch.judged =
      j.passage before u (emitted (arrivals.flatMap l.turn)) := by
  induction arrivals generalizing before u with
  | nil => rfl
  | cons a rest ih =>
    have quiet := l.emitted_visit a
    cases handed : (l.visit a).handed with
    | some r =>
      simp [stretches, handed, ih, Stretch.judged, Linter.turn, Visit.turn, quiet, Judge.passage]
    | none => simp [stretches, handed, ih, Stretch.judged, Linter.turn, Visit.turn, quiet]

/-- Each stretch is about the record that arrives. -/
theorem stretches_isFor (before : List Record) (u : τ) (arrivals : List (Arrival σ)) :
    List.Forall₂ (fun a x => Stretch.IsFor a.record x) arrivals
      (stretches l j before u arrivals) := by
  induction arrivals generalizing before u with
  | nil => exact .nil
  | cons a rest ih =>
    have visits := l.handle_visits a.record a.state
    cases handed : (l.visit a).handed with
    | some r =>
      have fate : (l.visit a).fate = .emitted r := by
        unfold Visit.handed at handed
        split at handed
        · next linted fate =>
          cases handed
          exact fate
        · cases handed
      simp only [stretches, handed]
      refine .cons ⟨visits.isOf, j.turn_isReportOn before u r, by simp, ?_⟩ (ih _ _)
      rintro linted ⟨⟩
      exact visits.emitted r fate
    | none =>
      simp only [stretches, handed]
      exact .cons ⟨visits.isOf, by simp, by simp, by simp⟩ (ih _ _)

/-- While the reporter returns, a run is its stretches, and the verdict on all records that have
been handed on. -/
theorem run_after [Wording] (s : σ) (u : τ) (before records : List Record)
    (completes : (l.process s records).error = none)
    (decodes : ∀ r ∈ emitted (l.process s records).events, r.Decodes)
    (returns : j.Returns (.after j.options.limit before) u
      (emitted (l.process s records).events)) :
    let alone := l.process s records
    let tally := Tally.after j.options.limit (before ++ emitted alone.events)
    (apart l j).run (u, s) (.after j.options.limit before) records =
      ⟨⟨(stretches l j before u (l.arrivals s records)).flatMap Stretch.events ++
          (j.options.verdict tally).1,
        alone.records, (j.stateBehind before u (emitted alone.events), alone.state),
        (j.options.verdict tally).2⟩, tally⟩ := by
  induction records generalizing s u before with
  | nil =>
    simp [run, stretches, Linter.arrivals, Linter.process, emitted, Judge.finish, apart,
      Judge.beside, Judge.stateBehind]
  | cons r rest ih =>
    have passes : (l.handle r s).Passes :=
      l.passes_of_process s _ completes ⟨r, s⟩ (by simp [Linter.arrivals])
    have events : (l.visit ⟨r, s⟩).events = (l.handle r s).events := rfl
    rw [l.process_cons s rest r passes] at completes decodes returns ⊢
    simp only [emitted_append, l.emitted_turn] at decodes returns ⊢
    cases fate : (l.handle r s).fate with
    | failed e => exact absurd fate (passes e)
    | dropped =>
      have handed : (l.visit ⟨r, s⟩).handed = none := by
        simp [Linter.visit, Visit.handed, fate]
      simp only [handed, Option.toList_none, List.nil_append] at decodes returns ⊢
      have later := ih _ u before completes decodes returns
      simp [run, Linter.handle_beside, Visit.beside, fate, later, stretches, Linter.arrivals,
        handed, Stretch.events, events, Linter.left, Visit.left]
    | emitted linted =>
      have handed : (l.visit ⟨r, s⟩).handed = some linted := by
        simp [Linter.visit, Visit.handed, fate]
      simp only [handed, Option.toList_some, List.singleton_append] at decodes returns ⊢
      have decodesNow := decodes linted (by simp)
      have now := j.handle_of_returns before u linted _ decodesNow returns
      have later := ih (l.handle r s).state (j.stateAfter before u linted) (before ++ [linted])
        completes (fun x member => decodes x (List.mem_cons_of_mem _ member))
        (j.returns_of_cons before u linted _ decodesNow returns)
      simp [run, Linter.handle_beside, Judge.handle_beside, Visit.beside, fate, now, later,
        stretches, Linter.arrivals, handed, Stretch.events, events, Linter.left, Visit.left,
        Judge.stateBehind]

theorem run_start [Wording] (s : σ) (u : τ) (records : List Record)
    (completes : (l.process s records).error = none)
    (decodes : ∀ r ∈ emitted (l.process s records).events, r.Decodes)
    (returns : j.Returns j.start u (emitted (l.process s records).events)) :
    let alone := l.process s records
    let tally := Tally.after j.options.limit (emitted alone.events)
    (apart l j).run (u, s) j.start records =
      ⟨⟨(stretches l j [] u (l.arrivals s records)).flatMap Stretch.events ++
          (j.options.verdict tally).1,
        alone.records, (j.stateBehind [] u (emitted alone.events), alone.state),
        (j.options.verdict tally).2⟩, tally⟩ := by
  rw [Judge.start, ← Tally.after_nil] at returns ⊢
  exact run_after l j s u [] records completes decodes returns

/-- The linting stage does in stretches what it does alone. -/
theorem linting_stretches (stretches : List Stretch) (records : List Record)
    (isFor : List.Forall₂ Stretch.IsFor records stretches) :
    (stretches.flatMap Stretch.events).filter Event.isLinting =
      (stretches.flatMap Stretch.linted).filter Event.isLinting := by
  induction isFor with
  | nil => rfl
  | cons about _ ih =>
    simp [ih, Stretch.events, Stretch.linted, linting_reports about.judging]

/-- A run over different records, whose reporter shares no state with the parts that the linting
stage calls, follows its stages if the linting stage completes when it runs alone, whatever the
reporter does: it judges the records that the linting stage hands on alone, and has handed on these
if it ends well. While payloads can be decoded and the reporter returns, the linting stage does all
that it does alone, and the run is a stretch for each record in order, with the verdict behind them.
It then ends well or with the verdict, if the findings that it covers can be put into words. -/
theorem run_factors [Wording] {ι : Type} [DecidableEq ι] (l : Linter σ) (j : Judge τ) (s : σ)
    (u : τ) (store : Store ι) (keys : List ι) (distinct : keys.Nodup)
    (completes : (l.processIn s store keys).error = none) :
    let alone := l.processIn s store keys
    let linted := (l.handedIn s store keys).map alone.store
    let judged := j.process j.start u linted
    let run := (apart l j).runIn (u, s) j.start store keys
    emitted alone.events = linted ∧
      FollowsStages run.events run.error run.tally alone.events judged ∧
      (run.error = none → emitted run.events = linted) ∧
      ((∀ r ∈ linted, r.Decodes) → j.Returns j.start u linted →
        emitted run.events = linted ∧ run.store = alone.store ∧
        run.events.filter Event.isLinting = alone.events.filter Event.isLinting ∧
        (∃ stretches verdict, List.Forall₂ Stretch.IsFor (keys.map store) stretches ∧
          (∀ e ∈ verdict, ∃ words, e = .log .info words) ∧
          run.events = stretches.flatMap Stretch.events ++ verdict ∧
          alone.events = stretches.flatMap Stretch.linted ∧
          judged.events = stretches.flatMap Stretch.judged ++ verdict) ∧
        (j.options.CanSay (upTo j.options.limit (foundIn linted)) →
          run.error = none ∨ ∃ verdict, run.error = some (.failedRun verdict))) := by
  intro alone linted judged run
  let records := keys.map store
  have course : alone = _ := l.processIn_eq s store distinct
  have outcome : run = _ := runIn_eq (u, s) store distinct (apart l j) j.start
  have handedOn : linted = emitted (l.process s records).events := l.map_handedIn s store distinct
  have ends : (l.process s records).error = none := by
    have ending : alone.error = none := completes
    rwa [course] at ending
  have follows : FollowsStages run.events run.error run.tally alone.events judged := by
    have values := run_followsStages l j s u j.start records ends
    rw [← handedOn] at values
    rw [outcome, course]
    exact values
  refine ⟨by rw [course, handedOn], follows, ?_, ?_⟩
  · intro ended
    rw [follows.handedOn]
    exact j.emitted_process_of_none _ _ _ (follows.error.symm.trans ended)
  · intro decodes returns
    have whole := run_start l j s u records ends (by rwa [← handedOn]) (by rwa [← handedOn])
    dsimp only at whole
    rw [← handedOn] at whole
    have turns := (l.process_of_arrivals s records (l.passes_of_process s records ends)).2.1
    have isFor : List.Forall₂ Stretch.IsFor records
        (stretches l j [] u (l.arrivals s records)) := by
      have each := stretches_isFor l j [] u (l.arrivals s records)
      rwa [← List.forall₂_map_left_iff, l.map_record_arrivals] at each
    have aloneParts : alone.events =
        (stretches l j [] u (l.arrivals s records)).flatMap Stretch.linted := by
      rw [linted_stretches, course]
      exact turns
    have judgedParts : judged.events =
        (stretches l j [] u (l.arrivals s records)).flatMap Stretch.judged ++
          (j.options.verdict (.after j.options.limit linted)).1 := by
      rw [judged_stretches, ← turns, ← handedOn]
      exact j.events_process_start u linted decodes returns
    have runParts : run.events = (stretches l j [] u (l.arrivals s records)).flatMap
        Stretch.events ++ (j.options.verdict (.after j.options.limit linted)).1 := by
      rw [outcome]
      exact congrArg (·.events) whole
    refine ⟨?_, ?_, ?_, ⟨_, _, isFor, Judge.events_verdict _ _, runParts, aloneParts,
      judgedParts⟩, ?_⟩
    · rw [follows.handedOn]
      exact j.emitted_process_start u linted decodes returns
    · rw [outcome, course]
      exact congrArg (fun o => store.putAll keys o.records) whole
    · rw [runParts, List.filter_append, linting_reports (Judge.verdict_isReportOn _ _),
        List.append_nil, aloneParts]
      exact linting_stretches _ records isFor
    · intro sayable
      rw [follows.error]
      exact j.error_process_of_canSay u linted decodes returns sayable

/-- A run reports its first record as its reporting stage does alone. -/
theorem reported_runIn_of_handed [Wording] {ι : Type} [DecidableEq ι] (s : σ) (u : τ) (t : Tally)
    (store : Store ι) (k : ι) (rest : List ι) (linted : Record)
    (handed : (l.handle (store k) s).fate = .emitted linted) :
    reported (j.handle t u linted).events ⊆
      reported ((apart l j).runIn (u, s) t store (k :: rest)).events := by
  intro b called
  simp only [runIn, linter_apart, judge_apart, Linter.handle_beside, Visit.beside, handed]
  split
  · simp [Judge.events_handle_beside, called]
  · simp [Judge.events_handle_beside, called]

section Sample

attribute [local instance] Wording.leftOut

/-- A file with findings that needs no linting, one for the error handler, and an empty one. -/
def sampleRecords : List Record := [.sample, Linter.empty "b.ts", Linter.empty "a.ts"]

/-- What the sample stage hands on of them. -/
def sampleLinted : List Record :=
  [.sample, { Linter.empty "a.ts" with lint := some ⟨"", "json"⟩ }]

/-- The records of the sample under their numbers. -/
def sampleStore : Store Nat := fun k => sampleRecords.getD k .sample

theorem sampleLinted_decodes : ∀ r ∈ sampleLinted, r.Decodes := by
  simp only [sampleLinted, List.forall_mem_cons]
  exact ⟨Record.sample_decodes, ⟨[], rfl⟩, by simp⟩

theorem foundIn_sampleLinted : foundIn sampleLinted = Record.sampleFindings := by
  have clean : Record.found { Linter.empty "a.ts" with lint := some ⟨"", "json"⟩ } = [] := rfl
  simp [foundIn, sampleLinted, clean]

theorem run_factors_sample :
    let j : Judge Unit := ⟨some Judge.quiet, ⟨true, 0, false⟩⟩
    let alone := Linter.sample.processIn () sampleStore [0, 1, 2]
    let run := (apart .sample j).runIn ((), ()) j.start sampleStore [0, 1, 2]
    alone.error = none ∧ emitted run.events = sampleLinted ∧
      run.events.filter Event.isLinting = alone.events.filter Event.isLinting ∧
      (run.error = none ∨ ∃ verdict, run.error = some (.failedRun verdict)) := by
  intro j
  dsimp only
  have linted : (Linter.sample.handedIn () sampleStore [0, 1, 2]).map
      (Linter.sample.processIn () sampleStore [0, 1, 2]).store = sampleLinted := rfl
  obtain ⟨-, -, -, factors⟩ :=
    run_factors .sample j () () sampleStore [0, 1, 2] (by decide) rfl
  rw [linted] at factors
  obtain ⟨handed, -, linting, -, ending⟩ := factors sampleLinted_decodes (fun _ _ => ⟨rfl, rfl⟩)
  refine ⟨rfl, handed, linting, ending ?_⟩
  rw [foundIn_sampleLinted]
  exact .inr (by decide +kernel)

/-- A reporter that fails stops a run whose linting stage completes alone: the next records are
never looked at. -/
theorem failing_reporter_stops_linting :
    let full : Error := .outside .runtime "full"
    let j : Judge Unit := ⟨some fun b u => ⟨⟨[], some full⟩, b.findings, u⟩, ⟨false, 0, false⟩⟩
    let alone := Linter.sample.processIn () sampleStore [0, 1, 2]
    let run := (apart .sample j).runIn ((), ()) j.start sampleStore [0, 1, 2]
    alone.error = none ∧ (∀ r ∈ emitted alone.events, r.Decodes) ∧ run.error = some full ∧
      run.events.filter Event.isLinting = [] ∧ alone.events.filter Event.isLinting ≠ [] := by
  intro full j
  dsimp only
  have handed : emitted (Linter.sample.processIn () sampleStore [0, 1, 2]).events = sampleLinted :=
    rfl
  have due : j.dueFindings [] .sample ≠ [] := by
    rw [Judge.dueFindings_ne_nil_iff, Record.sample_found]
    exact ⟨List.cons_ne_nil _ _, by decide⟩
  have broken (u : Unit) : (j.handle j.start u .sample).error = some full := by
    rw [Judge.start, ← Tally.after_nil,
      j.handle_of_error [] u .sample Record.sample_decodes due rfl]
  have stopped := run_of_ruled (apart .sample j) ((), ()) j.start .sample .sample rfl
    [Linter.empty "b.ts", Linter.empty "a.ts"]
    (by rw [judge_apart, Judge.error_handle_beside, broken])
  have values : [0, 1, 2].map sampleStore = sampleRecords := rfl
  rw [handed, runIn_eq ((), ()) sampleStore (by decide) (apart .sample j) j.start, values,
    sampleRecords, stopped]
  refine ⟨rfl, sampleLinted_decodes, rfl, ?_, ?_⟩
  · rw [List.filter_append, linting_reports (Judge.handle_isReportOn _ _ _ _)]
    rfl
  · exact List.cons_ne_nil (Event.resolve (Linter.empty "b.ts").path) _

/-- One record that comes twice, to an engine that finds something only the first time: the run
reports what was found, but all that the reporting stage could find in the record when it has been
linted is nothing. So the records have to be different. -/
theorem repeated_record_is_reported_between :
    let engine : Engine Bool := .callable fun _ first =>
      (⟨.ok (.payload ⟨if first then Record.sampleText else "", "json"⟩), 0⟩, false)
    let l : Linter Bool := ⟨fun _ s => (⟨.ok [], 0⟩, s), engine, none, none, none⟩
    let j : Judge Unit := ⟨some Judge.quiet, ⟨false, 0, false⟩⟩
    let store : Store Unit := fun _ => Linter.empty "a.ts"
    let alone := l.processIn true store [(), ()]
    let linted := (l.handedIn true store [(), ()]).map alone.store
    let run := (apart l j).runIn ((), true) j.start store [(), ()]
    alone.error = none ∧ (∀ r ∈ linted, r.Decodes) ∧
      reported (j.process j.start () linted).events = [] ∧ reported run.events ≠ [] := by
  intro engine l j store alone linted
  dsimp only
  have again : linted = [{ Linter.empty "a.ts" with lint := some ⟨"", "json"⟩ },
      { Linter.empty "a.ts" with lint := some ⟨"", "json"⟩ }] := rfl
  refine ⟨rfl, ?_, by rw [again]; rfl, ?_⟩
  · rw [again]
    simpa using ⟨[], rfl⟩
  · let first : Record := { Linter.empty "a.ts" with lint := some ⟨Record.sampleText, "json"⟩ }
    have decoded : first.decoded = .ok Record.sampleFindings :=
      Record.decoded_of_decodeText rfl Record.sampleText_decode
    have due : j.dueFindings [] first ≠ [] := by
      rw [Judge.dueFindings_ne_nil_iff, Record.found_of_decoded decoded]
      exact ⟨List.cons_ne_nil _ _, by decide⟩
    have called : reported (j.handle j.start () first).events = [j.dueBatch [] first] := by
      rw [Judge.start, ← Tally.after_nil, j.reported_handle [] () first ⟨_, decoded⟩]
      exact if_pos ⟨due, rfl⟩
    have fate : (l.handle (Linter.empty "a.ts") true).fate = .emitted first := rfl
    have told := reported_runIn_of_handed l j true () j.start store () [()] first fate
    rw [called] at told
    exact List.ne_nil_of_mem (told List.mem_cons_self)

end Sample

end Flow

end LintRun
