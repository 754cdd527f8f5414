import LintRun.Proofs.Linting.Visit

/-!
# Limits on time

A limit that no call outlasts changes nothing, unless the resolver reports a timeout of its own:
under a limit that is taken for the limit, so that the stage stops where the error handler would
get the record. The errors of an engine are told with the file, so it reports no timeout, but an
answer may that cannot be quoted or asked for its parts.
-/
namespace LintRun

namespace Call

variable {α : Type} (path : Path) (phase : String) (c : Call α)

theorem within_none : c.within none path phase = c.ending := rfl

theorem within_some (t : Float) (inTime : ¬ t < c.seconds)
    (quiet : ∀ words, c.ending ≠ .error (.outside .timeout words)) :
    c.within (some t) path phase = c.ending := by
  simp only [within, if_neg inTime]

theorem within_some_of_timeout (t : Float) (words : String)
    (reported : c.ending = .error (.outside .timeout words)) :
    c.within (some t) path phase = .error (.overtime path.toString phase t) := by
  simp only [within, reported]
  split <;> rfl

end Call

/-- Two courses look the same from outside: they hand the same records on, leave all records as
they are in the other, give the same to the error handler, and end alike. -/
structure Course.Agrees {σ : Type} (first second : Course σ) : Prop where
  handedOn : emitted first.events = emitted second.events
  records : first.records = second.records
  refusals : refused first.events = refused second.events
  error : first.error = second.error

theorem Course.Agrees.refl {σ : Type} (c : Course σ) : c.Agrees c := ⟨rfl, rfl, rfl, rfl⟩

/-- Courses that agree and begin with the same visit agree behind it. -/
theorem Course.Agrees.behind {σ : Type} (events : List Event) (r : Record)
    {first second : Course σ}
    (agrees : Agrees ⟨events ++ first.events, r :: first.records, first.state, first.error⟩
      ⟨events ++ second.events, r :: second.records, second.state, second.error⟩) :
    first.Agrees second := by
  refine ⟨?_, ?_, ?_, agrees.error⟩
  · simpa using agrees.handedOn
  · simpa using agrees.records
  · simpa using agrees.refusals

namespace Linter

variable {σ : Type}

def under (l : Linter σ) (limit : Option Float) : Linter σ := { l with limit }

/-- A call made for a record that comes in a state takes so many seconds. -/
inductive Takes (l : Linter σ) (r : Record) (s : σ) : Float → Prop where
  | resolving (some : r.isNull = false) (buffered : r.isStream = false) :
    Takes l r s (l.resolver r.path s).1.seconds
  | asking (some : r.isNull = false) (buffered : r.isStream = false) (configuration : Table)
    (next : σ) (resolved : l.resolve r s = (.ok configuration, next)) (text : String)
    (decoded : r.text = .ok text) :
    Takes l r s (l.engine.run (l.requestFor r configuration text) next).1.seconds

/-- A timeout is reported in a phase, for a record that comes in a state: by the resolver, or by an
answer of the engine that is no payload. -/
inductive ReportsTimeout (l : Linter σ) (r : Record) (s : σ) : String → Prop where
  | resolving (some : r.isNull = false) (buffered : r.isStream = false) (words : String)
    (reported : (l.resolver r.path s).1.ending = .error (.outside .timeout words)) :
    ReportsTimeout l r s "Config resolution"
  | asking (some : r.isNull = false) (buffered : r.isStream = false) (configuration : Table)
    (next : σ) (resolved : l.resolve r s = (.ok configuration, next)) (text : String)
    (decoded : r.text = .ok text) (words : String)
    (untold : l.engine.GivesUntold (l.requestFor r configuration text) next)
    (reported : (l.engine.run (l.requestFor r configuration text) next).1.ending =
      .error (.outside .timeout words)) : ReportsTimeout l r s "Linting"

/-- Of an engine, only an answer that cannot be told of reports a timeout. -/
theorem givesUntold_of_timeout (engine : Engine σ) (q : Request) (s : σ) (words : String)
    (reported : (engine.run q s).1.ending = .error (.outside .timeout words)) :
    engine.GivesUntold q s := by
  refine Classical.byContradiction fun told => ?_
  obtain ⟨p, same⟩ := (engine.fails_by_engine_iff q s _ reported (by simp)).mpr told
  cases same

section Under

variable (l : Linter σ) (t : Float) (r : Record) (s : σ)

theorem resolve_under (inTime : ¬ t < (l.resolver r.path s).1.seconds)
    (quiet : ∀ words, (l.resolver r.path s).1.ending ≠ .error (.outside .timeout words)) :
    (l.under (some t)).resolve r s = (l.under none).resolve r s := by
  simp only [resolve, under, Call.within_none, Call.within_some _ _ _ t inTime quiet]

theorem ask_under (events : List Event) (configuration : Table) (text : String)
    (inTime : ¬ t < (l.engine.run (l.requestFor r configuration text) s).1.seconds)
    (quiet : ∀ words, (l.engine.run (l.requestFor r configuration text) s).1.ending ≠
      .error (.outside .timeout words)) :
    (l.under (some t)).ask r events s configuration text =
      (l.under none).ask r events s configuration text := by
  have same := Call.within_some r.path "Linting" _ t inTime quiet
  simp only [requestFor] at same
  simp only [ask, under, Call.within_none, same]

/-- A record whose calls are in time, and report no timeout, does not see the limit. -/
theorem handle_under (inTime : ∀ x, (l.under none).Takes r s x → ¬ t < x)
    (quiet : ∀ phase, ¬ (l.under none).ReportsTimeout r s phase) :
    (l.under (some t)).handle r s = (l.under none).handle r s := by
  unfold handle
  cases null : r.isNull with
  | true => rfl
  | false =>
    cases stream : r.isStream with
    | true => rfl
    | false =>
      have resolved := l.resolve_under t r s (inTime _ (.resolving null stream))
        (fun words reported => quiet _ (.resolving null stream words reported))
      simp only [Bool.false_eq_true, if_false, lint, resolved]
      cases resolution : (l.under none).resolve r s with
      | mk outcome next =>
        cases outcome with
        | error e => rfl
        | ok configuration =>
          cases text : r.text with
          | error e => rfl
          | ok words =>
            exact l.ask_under t r next _ configuration words
              (inTime _ (.asking null stream configuration next resolution words text))
              fun told reported => quiet _ (.asking null stream configuration next resolution words
                text told (givesUntold_of_timeout _ _ next told reported) reported)

/-- A timeout that is reported stops a stage with a limit that no call outlasts. -/
theorem handle_under_some_of_reports {phase : String}
    (inTime : ∀ x, (l.under none).Takes r s x → ¬ t < x)
    (reports : (l.under none).ReportsTimeout r s phase) :
    ((l.under (some t)).handle r s).fate = .failed (.overtime r.path.toString phase t) ∧
      refused ((l.under (some t)).handle r s).events = [] := by
  cases reports with
  | resolving null stream words reported =>
    have late := Call.within_some_of_timeout r.path "Config resolution" _ t words reported
    have unresolved : (l.under (some t)).resolve r s =
        (.error (.overtime r.path.toString "Config resolution" t), (l.resolver r.path s).2) := by
      simp only [under] at late
      simp only [resolve, under, late, Error.ofResolver]
    rw [handle_of_unresolved _ _ _ null stream unresolved,
      refuse_of_unhandled _ _ _ _ (.inr (by simp)), fail_fate, refused_fail]
    exact ⟨rfl, rfl⟩
  | asking null stream configuration next resolved text decoded words _ reported =>
    have late := Call.within_some_of_timeout r.path "Linting" _ t words reported
    have quiet (words : String) :
        (l.resolver r.path s).1.ending ≠ .error (.outside .timeout words) := by
      intro refused
      simp [resolve, under, Call.within_none, refused] at resolved
    have same := l.resolve_under t r s (inTime _ (.resolving null stream)) quiet
    rw [handle_of_resolved _ _ _ null stream (same.trans resolved) decoded,
      ask_of_error _ _ _ _ late, fail_fate, refused_fail, refused_append, refused_requests]
    exact ⟨rfl, rfl⟩

/-- Without a limit a timeout that is reported goes to the error handler, or stops the stage as what
it is. -/
theorem handle_under_none_of_reports {phase : String}
    (reports : (l.under none).ReportsTimeout r s phase) :
    refused ((l.under none).handle r s).events ≠ [] ∨
      ∃ e, ((l.under none).handle r s).fate = .failed e ∧
        ∀ path phase t, e ≠ .overtime path phase t := by
  cases reports with
  | resolving null stream words reported =>
    have unresolved : (l.under none).resolve r s =
        (.error (.resolution r.path.toString words), (l.resolver r.path s).2) := by
      have told : Error.ofResolver r.path (.outside .timeout words) =
          .resolution r.path.toString words := rfl
      simp only [under] at reported
      simp only [resolve, under, Call.within_none, reported, told]
    rw [handle_of_unresolved _ _ _ null stream unresolved]
    cases chosen : (l.under none).handler with
    | none =>
      rw [refuse_of_unhandled _ _ _ _ (.inl chosen)]
      exact .inr ⟨_, fail_fate _ _ _ _, by simp⟩
    | some handle =>
      rw [refuse_of_handler _ _ _ _ chosen]
      left
      rcases handle r (.resolution r.path.toString words) (l.resolver r.path s).2 with
        ⟨_ | e, last⟩
      · simp [refused]
      · dsimp only
        rw [refused_fail]
        simp [refused]
  | asking null stream configuration next resolved text decoded words _ reported =>
    have failed := (Call.within_none r.path "Linting" _).trans reported
    rw [handle_of_resolved _ _ _ null stream resolved decoded,
      ask_of_error (l.under none) r _ next failed]
    exact .inr ⟨_, fail_fate _ _ _ _, by simp⟩

/-- A visit ends as overtime because a call takes too long, because a timeout is reported under a
limit, or because the resolver or the error handler itself ends so. -/
theorem handle_overtime (path phase : String)
    (failed : (l.handle r s).fate = .failed (.overtime path phase t)) :
    (path = r.path.toString ∧ l.limit = some t ∧
        ((∃ x, l.Takes r s x ∧ t < x) ∨ l.ReportsTimeout r s phase)) ∨
      (l.resolver r.path s).1.ending = .error (.overtime path phase t) ∨
      ∃ last, l.HandlerEnds r s (.overtime path phase t) last := by
  have visits := l.handle_visits r s
  generalize l.handle r s = v at visits failed
  cases visits with
  | skipped => cases failed
  | streaming => cases failed
  | dropped => cases failed
  | linted => cases failed
  | raised _ _ e last ends =>
    rw [fail_fate] at failed
    cases failed
    exact .inr (.inr ⟨last, ends⟩)
  | unresolved null stream e next unresolved =>
    rw [fail_fate] at failed
    cases failed
    obtain ⟨c, cause, called, failure, told⟩ := l.resolve_error r s _ next unresolved
    have same : (l.resolver r.path s).1 = c := by rw [called]
    subst same
    have kind := Error.ofResolver_eq_overtime r.path cause path phase t told.symm
    subst kind
    rcases Call.within_error _ _ _ _ _ failure with ending | ⟨limit, chosen, overtime, why⟩
    · exact .inr (.inl ending)
    · cases overtime
      refine .inl ⟨rfl, chosen, ?_⟩
      rcases why with late | ⟨words, reported⟩
      · exact .inl ⟨_, .resolving null stream, late⟩
      · exact .inr (.resolving null stream words reported)
  | unbuffered _ _ _ _ _ e textless =>
    rw [fail_fate] at failed
    cases failed
    unfold Record.text at textless
    split at textless <;> cases textless
  | refused null stream configuration next resolved text decoded c last asked e failure =>
    rw [fail_fate] at failed
    cases failed
    have same : (l.engine.run (l.requestFor r configuration text) next).1 = c := by rw [asked]
    subst same
    rcases Call.within_error _ _ _ _ _ failure with ending | ⟨limit, chosen, overtime, why⟩
    · have ofEngine := l.engine.isOfEngine_of_run _ next _ ending
      exact absurd rfl (ofEngine.ne_overtime path phase t)
    · cases overtime
      refine .inl ⟨rfl, chosen, ?_⟩
      rcases why with late | ⟨words, reported⟩
      · exact .inl ⟨_, .asking null stream configuration next resolved text decoded, late⟩
      · exact .inr (.asking null stream configuration next resolved text decoded words
          (givesUntold_of_timeout _ _ next words reported) reported)

end Under

section Run

variable {l : Linter σ} {t : Float} {s : σ} {records : List Record}

/-- No call of a run without a limit takes longer than `t`. -/
def InTime (l : Linter σ) (t : Float) (s : σ) (records : List Record) : Prop :=
  ∀ s' r x, (l.under none).Reaches s records s' r → (l.under none).Takes r s' x → ¬ t < x

/-- It is enough that neither the resolver nor the engine ever takes longer. -/
theorem inTime_of_calls (resolves : ∀ p s, ¬ t < (l.resolver p s).1.seconds)
    (asks : ∀ q s, ¬ t < (l.engine.run q s).1.seconds) : l.InTime t s records := by
  intro s' r x _ takes
  cases takes with
  | resolving => exact resolves r.path s'
  | asking _ _ _ next => exact asks _ next

theorem InTime.head {r : Record} (inTime : l.InTime t s (r :: records)) (x : Float)
    (takes : (l.under none).Takes r s x) : ¬ t < x :=
  inTime s r x (.here s r records) takes

theorem InTime.tail {r : Record} (inTime : l.InTime t s (r :: records))
    (passes : ∀ e, ((l.under none).handle r s).fate ≠ .failed e) :
    l.InTime t ((l.under none).handle r s).state records := by
  intro s' r' x reached
  exact inTime s' r' x (.later s r records s' r' passes reached)

/-- A run in time that gets no report of a timeout does not see the limit. -/
theorem process_under (inTime : l.InTime t s records)
    (quiet : ∀ s' r, (l.under none).Reaches s records s' r →
      ∀ phase, ¬ (l.under none).ReportsTimeout r s' phase) :
    (l.under (some t)).process s records = (l.under none).process s records := by
  induction records generalizing s with
  | nil => rfl
  | cons r rest ih =>
    have now := l.handle_under t r s inTime.head (quiet s r (.here s r rest))
    have later (passes : ∀ e, ((l.under none).handle r s).fate ≠ .failed e) :=
      ih (inTime.tail passes)
        (fun s' r' reached => quiet s' r' (.later s r rest s' r' passes reached))
    rw [process, process, now]
    cases fate : ((l.under none).handle r s).fate with
    | failed e => rfl
    | dropped => simp only [later (by simp [fate])]
    | emitted linted => simp only [later (by simp [fate])]

/-- The report of a timeout at the first record parts the runs. -/
theorem process_under_of_reports (r : Record) {phase : String}
    (inTime : ∀ x, (l.under none).Takes r s x → ¬ t < x)
    (reports : (l.under none).ReportsTimeout r s phase) :
    ¬ ((l.under (some t)).process s (r :: records)).Agrees
        ((l.under none).process s (r :: records)) ∧
      ((l.under (some t)).process s (r :: records)).error =
        some (.overtime r.path.toString phase t) := by
  obtain ⟨limited, silent⟩ := l.handle_under_some_of_reports t r s inTime reports
  have ending : ((l.under (some t)).process s (r :: records)).error =
      some (.overtime r.path.toString phase t) := by
    simp only [process, limited]
  refine ⟨fun agrees => ?_, ending⟩
  rcases l.handle_under_none_of_reports r s reports with heard | ⟨e, stopped, other⟩
  · refine heard ?_
    have refusals := agrees.refusals
    rw [process, process] at refusals
    simp only [limited, silent] at refusals
    split at refusals
    · exact refusals.symm
    · exact (List.append_eq_nil_iff.mp ((refused_append _ _).symm.trans refusals.symm)).1
    · exact (List.append_eq_nil_iff.mp ((refused_append _ _).symm.trans refusals.symm)).1
  · have free : ((l.under none).process s (r :: records)).error = some e := by
      simp only [process, stopped]
    have same := ending.symm.trans (agrees.error.trans free)
    exact other _ _ _ (Option.some.inj same).symm

/-- The report of a timeout at any record that a run comes to parts the runs: what they have done
before is the same. -/
theorem not_agrees_of_reports (inTime : l.InTime t s records) (s' : σ) (r : Record)
    {phase : String} (reached : (l.under none).Reaches s records s' r)
    (reports : (l.under none).ReportsTimeout r s' phase) :
    ¬ ((l.under (some t)).process s records).Agrees ((l.under none).process s records) ∧
      ∃ s' r phase, (l.under none).Reaches s records s' r ∧
        (l.under none).ReportsTimeout r s' phase ∧
        ((l.under (some t)).process s records).error =
          some (.overtime r.path.toString phase t) := by
  induction reached with
  | here s r rest =>
    obtain ⟨parted, ending⟩ := process_under_of_reports r inTime.head reports
    exact ⟨parted, s, r, phase, .here s r rest, reports, ending⟩
  | later s first rest s' r passes _ ih =>
    by_cases early : ∃ phase, (l.under none).ReportsTimeout first s phase
    · obtain ⟨phase, reports⟩ := early
      obtain ⟨parted, ending⟩ := process_under_of_reports first inTime.head reports
      exact ⟨parted, s, first, phase, .here s first rest, reports, ending⟩
    · obtain ⟨parted, s'', r', phase', reached', reports', ending⟩ :=
        ih (inTime.tail passes) reports
      have now := l.handle_under t first s inTime.head (not_exists.mp early)
      have further := Reaches.later s first rest s'' r' passes reached'
      rw [process, process, now]
      cases fate : ((l.under none).handle first s).fate with
      | failed e => exact absurd fate (passes e)
      | dropped =>
        refine ⟨?_, s'', r', phase', further, reports', ending⟩
        intro agrees
        exact parted (.behind _ _ agrees)
      | emitted linted =>
        refine ⟨?_, s'', r', phase', further, reports', ending⟩
        intro agrees
        refine parted (.behind (((l.under none).handle first s).events ++ [.emit linted]) linted ?_)
        simpa using agrees

end Run

/-- A run in time looks the same with and without the limit, and then is the same, exactly if no
timeout is reported for a record that the run without the limit comes to; else it ends as overtime
for such a record. In time or not, a run ends as overtime only for a record it comes to: because a
call for it takes longer than the limit, because a timeout is reported, or because the resolver or
the error handler itself ends so. -/
theorem limit_seen_iff_timeout_reported (l : Linter σ) (t : Float) (s : σ)
    (records : List Record) :
    let limited := (l.under (some t)).process s records
    let free := (l.under none).process s records
    (l.InTime t s records →
      (limited.Agrees free ↔
        ∀ s' r, (l.under none).Reaches s records s' r →
          ∀ phase, ¬ (l.under none).ReportsTimeout r s' phase) ∧
      (limited.Agrees free → limited = free) ∧
      (¬ limited.Agrees free →
        ∃ s' r phase, (l.under none).Reaches s records s' r ∧
          (l.under none).ReportsTimeout r s' phase ∧
          limited.error = some (.overtime r.path.toString phase t))) ∧
    ∀ path phase limit, limited.error = some (.overtime path phase limit) →
      ∃ s' r, (l.under (some t)).Reaches s records s' r ∧
        ((path = r.path.toString ∧ limit = t ∧
            ((∃ x, (l.under (some t)).Takes r s' x ∧ t < x) ∨
              (l.under (some t)).ReportsTimeout r s' phase)) ∨
          (l.resolver r.path s').1.ending = .error (.overtime path phase limit) ∨
          ∃ last, (l.under (some t)).HandlerEnds r s' (.overtime path phase limit) last) := by
  intro limited free
  constructor
  · intro inTime
    have same (quiet : ∀ s' r, (l.under none).Reaches s records s' r →
        ∀ phase, ¬ (l.under none).ReportsTimeout r s' phase) : limited = free :=
      process_under inTime quiet
    have parts (s' : σ) (r : Record) (phase : String)
        (reached : (l.under none).Reaches s records s' r)
        (reports : (l.under none).ReportsTimeout r s' phase) :=
      not_agrees_of_reports inTime s' r reached reports
    have quiet_of_agrees (agrees : limited.Agrees free) (s' : σ) (r : Record)
        (reached : (l.under none).Reaches s records s' r) (phase : String) :
        ¬ (l.under none).ReportsTimeout r s' phase :=
      fun reports => (parts s' r phase reached reports).1 agrees
    refine ⟨⟨quiet_of_agrees, ?_⟩, ?_, ?_⟩
    · intro quiet
      rw [same quiet]
      exact .refl free
    · intro agrees
      exact same (quiet_of_agrees agrees)
    · intro parted
      by_cases heard : ∃ s' r phase, (l.under none).Reaches s records s' r ∧
          (l.under none).ReportsTimeout r s' phase
      · obtain ⟨s', r, phase, reached, reports⟩ := heard
        exact (parts s' r phase reached reports).2
      · refine absurd ?_ parted
        rw [same fun s' r reached phase reports => heard ⟨s', r, phase, reached, reports⟩]
        exact .refl free
  · intro path phase limit failed
    obtain ⟨s', r, reached, fate⟩ := process_error _ s records _ failed
    refine ⟨s', r, reached, ?_⟩
    rcases (l.under (some t)).handle_overtime limit r s' path phase fate with
      ⟨place, chosen, why⟩ | ending
    · cases chosen
      exact .inl ⟨place, rfl, why⟩
    · exact .inr ending

/-- Calls of one and two seconds do not see a limit of five. -/
theorem limit_unseen_in_time :
    let engine : Engine Unit := .callable fun _ s => (⟨.ok (.payload ⟨"", "json"⟩), 2⟩, s)
    let l : Linter Unit := ⟨fun _ s => (⟨.ok [], 1⟩, s), engine, none, none, none⟩
    let file : Record := ⟨⟨.root, ["a.ts"]⟩, "a.ts", .bytes .empty, none⟩
    l.InTime 5 () [file] ∧
      (l.under (some 5)).process () [file] = (l.under none).process () [file] := by
  intro engine l file
  have inTime : l.InTime 5 () [file] :=
    inTime_of_calls (fun _ _ => (by decide : ¬ (5 : Float) < 1))
      (fun _ _ => (by decide : ¬ (5 : Float) < 2))
  obtain ⟨seen, same, -⟩ := (limit_seen_iff_timeout_reported l 5 () [file]).1 inTime
  refine ⟨inTime, same (seen.mpr ?_)⟩
  rintro s' r - phase reports
  cases reports with
  | resolving _ _ words reported => cases reported
  | asking _ _ _ _ _ _ _ words _ reported => cases reported

/-- A resolver that reports a timeout at once is stopped by a limit that it keeps; without the
limit the error handler gets the record. -/
theorem reported_timeout_seen_as_limit :
    let engine : Engine Unit := .callable fun _ s => (⟨.ok (.payload ⟨"", "json"⟩), 2⟩, s)
    let l : Linter Unit :=
      ⟨fun _ s => (⟨.error (.outside .timeout "disk gone"), 0⟩, s), engine, none, none,
        some fun _ _ s => (none, s)⟩
    let file : Record := ⟨⟨.root, ["b.ts"]⟩, "b.ts", .bytes .empty, none⟩
    let limited := (l.under (some 5)).process () [file]
    let free := (l.under none).process () [file]
    l.InTime 5 () [file] ∧
      limited.error = some (.overtime file.path.toString "Config resolution" 5) ∧
      refused limited.events = [] ∧ free.error = none ∧
      refused free.events = [(file, .resolution file.path.toString "disk gone")] := by
  intro engine l file limited free
  have inTime : l.InTime 5 () [file] :=
    inTime_of_calls (fun _ _ => (by decide : ¬ (5 : Float) < 0))
      (fun _ _ => (by decide : ¬ (5 : Float) < 2))
  obtain ⟨stopped, silent⟩ := l.handle_under_some_of_reports 5 file () inTime.head
    (.resolving rfl rfl "disk gone" rfl)
  have ending : limited.error = some (.overtime file.path.toString "Config resolution" 5) := by
    simp only [limited, process, stopped]
  have refusals : refused limited.events = [] := by
    simp only [limited, process, stopped, silent]
  exact ⟨inTime, ending, refusals, rfl, rfl⟩

end Linter

end LintRun
