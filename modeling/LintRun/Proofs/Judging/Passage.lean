import LintRun.Judging
import LintRun.Proofs.Judging.Budget
import LintRun.Proofs.Trace

/-!
# The passage of records

What the reporting stage does while its reporter returns, in closed form: the turn of a record is
said in terms of the records before it, the passage is one turn after the other with each record
handed on behind its turn, and the verdict comes last (`process_start`). Nothing here mentions the
counters; that they amount to the same is the invariant of the induction.
-/
namespace LintRun

variable {σ : Type}

/-- A ruling, and the next one from its tally and state on; an error is the last thing that
happens. -/
def Ruling.andThen (now : Ruling σ) (next : Tally → σ → Ruling σ) : Ruling σ :=
  match now.error with
  | some _ => now
  | none =>
    let later := next now.tally now.state
    ⟨now.events ++ later.events, later.tally, later.state, later.error⟩

section AndThen

variable (now : Ruling σ) (next : Tally → σ → Ruling σ)

theorem Ruling.andThen_of_error (e : Error) (failed : now.error = some e) :
    now.andThen next = now := by
  rw [andThen, failed]

theorem Ruling.andThen_of_none (reached : now.error = none) :
    now.andThen next =
      let later := next now.tally now.state
      ⟨now.events ++ later.events, later.tally, later.state, later.error⟩ := by
  rw [andThen, reached]

theorem Ruling.andThen_assoc (final : Tally → σ → Ruling σ) :
    (now.andThen next).andThen final = now.andThen fun t s => (next t s).andThen final := by
  cases ending : now.error with
  | some e =>
    rw [now.andThen_of_error _ e ending, now.andThen_of_error _ e ending,
      now.andThen_of_error _ e ending]
  | none =>
    rw [now.andThen_of_none _ ending, now.andThen_of_none _ ending]
    cases later : (next now.tally now.state).error with
    | some e => simp [andThen, later]
    | none => simp [andThen, later]

end AndThen

namespace Judge

section Report

variable (j : Judge σ) (b : Batch) (s : σ)

/-- A call of the reporter leaves the stage alone: it returns normally, and as many findings are
left in its list as it got. -/
def ReturnsFrom : Prop :=
  (j.report b s).2.written.error = none ∧ (j.report b s).2.left.length = b.findings.length

theorem returnsFrom_of_none (chosen : j.reporter = none) : j.ReturnsFrom b s := by
  simp [ReturnsFrom, report, chosen]

theorem emitted_report : emitted (j.report b s).1 = [] := by
  unfold report
  split
  · rfl
  · simp [emitted]

/-- The reporter, if there is one, is called once. -/
theorem reported_report : reported (j.report b s).1 = if j.reporter.isSome then [b] else [] := by
  unfold report
  cases j.reporter with
  | none => rfl
  | some write => simp [reported]

theorem reported_notice (limit : Int) (reached : Prop) [Decidable reached] :
    reported (if reached then [notice limit] else []) = [] := by
  split <;> rfl

end Report

section Turn

variable (j : Judge σ) (before : List Record) (s : σ) (r : Record)

/-- The findings of a record that are reported when it comes after the records `before`. -/
def dueFindings : List Finding := share j.options.limit (foundIn before).length r.found

def dueBatch : Batch := ⟨j.dueFindings before r, some r, some j.options⟩

/-- Whether a record brings all that was found to the limit. -/
def Crosses : Prop :=
  ¬ IsSpent j.options.limit (foundIn before).length ∧
    IsSpent j.options.limit (foundIn (before ++ [r])).length

instance : Decidable (j.Crosses before r) := inferInstanceAs (Decidable (_ ∧ _))

/-- Whether records that come after the records `before` bring all that was found to the limit. -/
def Reaches (records : List Record) : Prop :=
  ¬ IsSpent j.options.limit (foundIn before).length ∧
    IsSpent j.options.limit (foundIn (before ++ records)).length

instance (records : List Record) : Decidable (j.Reaches before records) :=
  inferInstanceAs (Decidable (_ ∧ _))

theorem not_reaches_nil : ¬ j.Reaches before [] := by
  simp [Reaches]

/-- From the start on, the limit is reached exactly if the findings come to it. -/
theorem reaches_start_iff (records : List Record) :
    j.Reaches [] records ↔ IsSpent j.options.limit (foundIn records).length := by
  simp [Reaches, foundIn, not_isSpent_zero]

/-- Records reach the limit with the first of them or with the others. -/
theorem reaches_cons_iff (rest : List Record) :
    j.Reaches before (r :: rest) ↔ j.Crosses before r ∨ j.Reaches (before ++ [r]) rest := by
  unfold Reaches Crosses
  rw [List.append_assoc, List.singleton_append]
  by_cases now : IsSpent j.options.limit (foundIn (before ++ [r])).length
  · have still := now.append rest
    rw [List.append_assoc, List.singleton_append] at still
    simp only [now, still, not_true_eq_false, and_true, or_false]
  · have unspent : ¬ IsSpent j.options.limit (foundIn before).length :=
      fun spent => now (spent.append [r])
    simp only [now, unspent, not_false_eq_true, true_and, and_false, false_or]

/-- The limit is reached once. -/
theorem Crosses.not_reaches {j : Judge σ} {before : List Record} {r : Record}
    (crosses : j.Crosses before r) (rest : List Record) : ¬ j.Reaches (before ++ [r]) rest :=
  fun again => again.1 crosses.2

/-- The events of a record that comes after the records `before`, in a state of the reporter. -/
def turn : List Event :=
  if j.dueFindings before r = [] then []
  else
    (j.report (j.dueBatch before r) s).1 ++
      (if j.Crosses before r then [notice j.options.limit] else [])

def stateAfter : σ :=
  if j.dueFindings before r = [] then s else (j.report (j.dueBatch before r) s).2.state

/-- A record is due exactly if it has findings and the limit is not spent yet. -/
theorem dueFindings_ne_nil_iff :
    j.dueFindings before r ≠ [] ↔
      r.found ≠ [] ∧ ¬ IsSpent j.options.limit (foundIn before).length := by
  unfold dueFindings
  rw [ne_eq, share_eq_nil_iff, not_or]

/-- A record that brings what was found to the limit is due. -/
theorem Crosses.dueFindings_ne_nil {j : Judge σ} {before : List Record} {r : Record}
    (crosses : j.Crosses before r) : j.dueFindings before r ≠ [] := by
  refine (j.dueFindings_ne_nil_iff before r).mpr ⟨?_, crosses.1⟩
  intro clean
  have spent := crosses.2
  rw [foundIn_append, foundIn_singleton, clean, List.append_nil] at spent
  exact crosses.1 spent

theorem emitted_turn : emitted (j.turn before s r) = [] := by
  unfold turn
  split
  · rfl
  · rw [emitted_append, emitted_report]
    split <;> rfl

theorem reported_turn :
    reported (j.turn before s r) =
      if j.dueFindings before r ≠ [] ∧ j.reporter.isSome then [j.dueBatch before r] else [] := by
  unfold turn
  by_cases nothing : j.dueFindings before r = []
  · simp [nothing, reported]
  · simp [nothing, reported_notice, reported_report]

end Turn

section Passage

variable (j : Judge σ)

/-- The events of records that come after the records `before`, each handed on after its turn. -/
def passage (j : Judge σ) (before : List Record) (s : σ) : List Record → List Event
  | [] => []
  | r :: rest =>
    j.turn before s r ++ .emit r :: j.passage (before ++ [r]) (j.stateAfter before s r) rest

/-- The state of the reporter behind records that come after the records `before`. -/
def stateBehind (j : Judge σ) (before : List Record) (s : σ) : List Record → σ
  | [] => s
  | r :: rest => j.stateBehind (before ++ [r]) (j.stateAfter before s r) rest

theorem passage_append (first second before : List Record) (s : σ) :
    j.passage before s (first ++ second) =
      j.passage before s first ++
        j.passage (before ++ first) (j.stateBehind before s first) second := by
  induction first generalizing before s with
  | nil => simp [passage, stateBehind]
  | cons r rest ih => simp [passage, stateBehind, ih]

/-- All records are handed on as they are, in order. -/
theorem emitted_passage (records before : List Record) (s : σ) :
    emitted (j.passage before s records) = records := by
  induction records generalizing before s with
  | nil => rfl
  | cons r rest ih => simp [passage, emitted_turn, ih]

end Passage

section Verdict

variable (o : ReportOptions) (t : Tally)

/-- The verdict is at most a line on the log. -/
theorem events_verdict (e : Event) (member : e ∈ (o.verdict t).1) :
    ∃ words, e = .log .info words := by
  unfold ReportOptions.verdict at member
  split at member
  · simp at member
  · simp at member
  · split at member
    · simp at member
    · split at member
      · exact ⟨_, List.mem_singleton.mp member⟩
      · simp at member

theorem emitted_verdict : emitted (o.verdict t).1 = [] := by
  apply List.filterMap_eq_nil_iff.mpr
  intro e member
  obtain ⟨words, rfl⟩ := events_verdict o t e member
  rfl

theorem reported_verdict : reported (o.verdict t).1 = [] := by
  apply List.filterMap_eq_nil_iff.mpr
  intro e member
  obtain ⟨words, rfl⟩ := events_verdict o t e member
  rfl

end Verdict

variable [Wording]

section Handle

variable (j : Judge σ) (before : List Record) (s : σ) (r : Record) (decodes : r.Decodes)

include decodes

/-- Nothing happens to a record of which nothing is due. One without findings never is. -/
theorem handle_of_not_due (nothing : j.dueFindings before r = []) :
    j.handle (.after j.options.limit before) s r =
      ⟨[], .after j.options.limit (before ++ [r]), s, none⟩ := by
  unfold handle
  rw [decodes.findings_eq]
  by_cases clean : r.found = []
  · simp [clean, Tally.after_append_clean]
  · have batch : ((Tally.after j.options.limit before).record r r.found).reportable r.found = [] :=
      (Tally.reportable_record_after _ _ _).trans nothing
    have spent := ((share_eq_nil_iff _ _ _).mp nothing).resolve_left clean
    simp only [List.isEmpty_iff, clean, if_false, deliver, batch, if_true]
    rw [Tally.record_after_of_isSpent _ _ _ clean spent]

variable (due : j.dueFindings before r ≠ [])

include due

/-- The reporter is called on a record of which something is due; what it leaves in its list is
counted if it returns. -/
theorem handle_of_due :
    j.handle (.after j.options.limit before) s r =
      let (events, call) := j.report (j.dueBatch before r) s
      let t := (Tally.after j.options.limit before).record r r.found
      match call.written.error with
      | some e => ⟨events, t, call.state, some e⟩
      | none =>
        let (t, reached) := t.markReported call.left.length
        ⟨events ++ (if reached then [notice j.options.limit] else []), t, call.state, none⟩ := by
  have some := ((j.dueFindings_ne_nil_iff before r).mp due).1
  have batch : ((Tally.after j.options.limit before).record r r.found).reportable r.found =
      j.dueFindings before r := Tally.reportable_record_after _ _ _
  unfold handle
  rw [decodes.findings_eq]
  simp only [List.isEmpty_iff, some, if_false, deliver, batch, due]
  rfl

/-- A reporter that does not return leaves the record counted, but nothing of it reported. -/
theorem handle_of_error {e : Error}
    (failed : (j.report (j.dueBatch before r) s).2.written.error = some e) :
    j.handle (.after j.options.limit before) s r =
      ⟨(j.report (j.dueBatch before r) s).1,
        (Tally.after j.options.limit before).record r r.found,
        (j.report (j.dueBatch before r) s).2.state, some e⟩ := by
  rw [j.handle_of_due before s r decodes due]
  simp only [failed]

/-- A record has its turn if the reporter returns. -/
theorem handle_of_returnsFrom (returns : j.ReturnsFrom (j.dueBatch before r) s) :
    j.handle (.after j.options.limit before) s r =
      ⟨j.turn before s r, .after j.options.limit (before ++ [r]), j.stateAfter before s r, none⟩ := by
  have some := ((j.dueFindings_ne_nil_iff before r).mp due).1
  have counted : ((Tally.after j.options.limit before).record r r.found).markReported
      (j.report (j.dueBatch before r) s).2.left.length =
      (.after j.options.limit (before ++ [r]), decide (j.Crosses before r)) := by
    rw [returns.2]
    exact Tally.markReported_record_after _ _ _ some
  rw [j.handle_of_due before s r decodes due]
  simp only [returns.1, counted, turn, stateAfter, due, if_false, decide_eq_true_eq]

end Handle

section Step

variable (j : Judge σ) (before : List Record) (s : σ) (r : Record) (decodes : r.Decodes)

include decodes

theorem reported_handle :
    reported (j.handle (.after j.options.limit before) s r).events =
      if j.dueFindings before r ≠ [] ∧ j.reporter.isSome then [j.dueBatch before r] else [] := by
  by_cases due : j.dueFindings before r = []
  · rw [j.handle_of_not_due before s r decodes due]
    simp [due, reported]
  · rw [j.handle_of_due before s r decodes due]
    dsimp only
    split
    · simp [due, reported_report]
    · simp [due, reported_report, reported_notice]

/-- One step of the invariant: a record after the records `before` has its turn, and the tally
afterwards is that of one record more. -/
theorem handle_after
    (returns : ∀ b ∈ reported (j.handle (.after j.options.limit before) s r).events,
      j.ReturnsFrom b s) :
    j.handle (.after j.options.limit before) s r =
      ⟨j.turn before s r, .after j.options.limit (before ++ [r]), j.stateAfter before s r, none⟩ := by
  by_cases due : j.dueFindings before r = []
  · rw [j.handle_of_not_due before s r decodes due]
    simp [turn, stateAfter, due]
  · refine j.handle_of_returnsFrom before s r decodes due ?_
    cases chosen : j.reporter with
    | none => exact j.returnsFrom_of_none _ _ chosen
    | some write =>
      apply returns
      simp [j.reported_handle before s r decodes, due, chosen]

end Step

/-- The calls of the reporter in a run from a tally and a state on, in order: each batch, with the
state in which the reporter gets it. -/
def calls (j : Judge σ) (t : Tally) (s : σ) : List Record → List (Batch × σ)
  | [] => []
  | r :: rest =>
    let now := j.handle t s r
    (reported now.events).map (·, s) ++
      match now.error with
      | some _ => []
      | none => j.calls now.tally now.state rest

/-- The reporter leaves the stage alone in each of its calls in a run. -/
def Returns (j : Judge σ) (t : Tally) (s : σ) (records : List Record) : Prop :=
  ∀ c ∈ j.calls t s records, j.ReturnsFrom c.1 c.2

/-- One record through the stage: what is done for it, and then it is handed on. -/
def step (j : Judge σ) (t : Tally) (s : σ) (r : Record) : Ruling σ :=
  (j.handle t s r).andThen fun t s => ⟨[.emit r], t, s, none⟩

/-- All records in order, without a verdict on them. -/
def pass (j : Judge σ) (t : Tally) (s : σ) : List Record → Ruling σ
  | [] => ⟨[], t, s, none⟩
  | r :: rest => (j.step t s r).andThen fun t s => j.pass t s rest

section Pass

variable (j : Judge σ) (t : Tally) (s : σ)

theorem process_cons (r : Record) (rest : List Record) :
    j.process t s (r :: rest) = (j.step t s r).andThen fun t s => j.process t s rest := by
  rw [process, step, Ruling.andThen_assoc]
  dsimp only
  split
  · next e failed => rw [Ruling.andThen_of_error _ _ e failed, ← failed]
  · next reached =>
    rw [Ruling.andThen_of_none _ _ reached]
    rfl

/-- A pass goes on behind a record that does not stop it. -/
theorem pass_cons_of_handle {r : Record} {events : List Event} {t' : Tally} {s' : σ}
    (now : j.handle t s r = ⟨events, t', s', none⟩) (rest : List Record) :
    j.pass t s (r :: rest) =
      let later := j.pass t' s' rest
      ⟨events ++ .emit r :: later.events, later.tally, later.state, later.error⟩ := by
  rw [pass, step, now]
  simp [Ruling.andThen]

/-- A run is the pass over its first records, and the run over the others from there. -/
theorem process_append (first second : List Record) :
    j.process t s (first ++ second) =
      (j.pass t s first).andThen fun t s => j.process t s second := by
  induction first generalizing t s with
  | nil => rfl
  | cons r rest ih =>
    rw [List.cons_append, process_cons, pass, Ruling.andThen_assoc]
    simp only [ih]

/-- A run is the pass over its records, and the verdict. -/
theorem process_eq_pass (records : List Record) :
    j.process t s records = (j.pass t s records).andThen j.finish := by
  have whole := j.process_append t s records []
  rwa [List.append_nil] at whole

/-- Without an error the verdict follows what a pass has done. -/
theorem process_of_pass (records : List Record) (reached : (j.pass t s records).error = none) :
    let front := j.pass t s records
    j.process t s records =
      ⟨front.events ++ (j.options.verdict front.tally).1, front.tally, front.state,
        (j.options.verdict front.tally).2⟩ := by
  rw [process_eq_pass, Ruling.andThen_of_none _ _ reached]
  rfl

/-- The verdict calls the reporter no more. -/
theorem reported_process (records : List Record) :
    reported (j.process t s records).events = reported (j.pass t s records).events := by
  cases ending : (j.pass t s records).error with
  | some e => rw [process_eq_pass, Ruling.andThen_of_error _ _ e ending]
  | none =>
    rw [j.process_of_pass t s records ending, reported_append, reported_verdict, List.append_nil]

/-- The batches of the calls are those that the trace of the run tells of. -/
theorem map_fst_calls (records : List Record) :
    (j.calls t s records).map Prod.fst = reported (j.process t s records).events := by
  induction records generalizing t s with
  | nil => exact (reported_verdict j.options t).symm
  | cons r rest ih =>
    have now : ((reported (j.handle t s r).events).map (·, s)).map Prod.fst =
        reported (j.handle t s r).events := by
      rw [List.map_map]
      exact List.map_id _
    rw [calls, process, List.map_append, now]
    dsimp only
    cases (j.handle t s r).error with
    | some e => simp
    | none => simp [ih]

/-- The calls of a run are those for its first records, and then those for the others, if the pass
over the first records comes to its end. -/
theorem calls_append (first second : List Record) :
    j.calls t s (first ++ second) =
      j.calls t s first ++
        match (j.pass t s first).error with
        | some _ => []
        | none => j.calls (j.pass t s first).tally (j.pass t s first).state second := by
  induction first generalizing t s with
  | nil => rfl
  | cons r rest ih =>
    rw [List.cons_append, calls, calls, pass, step]
    cases ending : (j.handle t s r).error with
    | some e => simp [Ruling.andThen, ending]
    | none => simp [Ruling.andThen, ending, ih]

theorem calls_prefix (first second : List Record) :
    j.calls t s first <+: j.calls t s (first ++ second) := by
  rw [calls_append]
  exact List.prefix_append _ _

/-- A reporter that leaves the stage alone in a run does so over its first records. -/
theorem Returns.front {j : Judge σ} {t : Tally} {s : σ} {first second : List Record}
    (returns : j.Returns t s (first ++ second)) : j.Returns t s first :=
  fun c called => returns c ((j.calls_prefix t s first second).subset called)

/-- Without a reporter there are no calls. -/
theorem returns_of_none (chosen : j.reporter = none) (records : List Record) :
    j.Returns t s records :=
  fun c _ => j.returnsFrom_of_none c.1 c.2 chosen

end Pass

section Run

variable (j : Judge σ)

section Peel

variable (before : List Record) (s : σ) (r : Record) (rest : List Record) (decodes : r.Decodes)
  (returns : j.Returns (.after j.options.limit before) s (r :: rest))

include decodes returns

/-- The first of several records has its turn. -/
theorem handle_of_returns :
    j.handle (.after j.options.limit before) s r =
      ⟨j.turn before s r, .after j.options.limit (before ++ [r]), j.stateAfter before s r, none⟩ := by
  refine j.handle_after before s r decodes fun b called => returns (b, s) ?_
  rw [calls]
  exact List.mem_append_left _ (List.mem_map_of_mem called)

theorem calls_cons :
    j.calls (.after j.options.limit before) s (r :: rest) =
      (reported (j.turn before s r)).map (·, s) ++
        j.calls (.after j.options.limit (before ++ [r])) (j.stateAfter before s r) rest := by
  rw [calls, j.handle_of_returns before s r rest decodes returns]

theorem returns_of_cons :
    j.Returns (.after j.options.limit (before ++ [r])) (j.stateAfter before s r) rest := by
  intro c called
  apply returns
  rw [j.calls_cons before s r rest decodes returns]
  exact List.mem_append_right _ called

end Peel

/-- The records of a pass have their turns one after the other, and the tally at its end is that
of all of them. -/
theorem pass_after (records before : List Record) (s : σ) (decodes : ∀ r ∈ records, r.Decodes)
    (returns : j.Returns (.after j.options.limit before) s records) :
    j.pass (.after j.options.limit before) s records =
      ⟨j.passage before s records, .after j.options.limit (before ++ records),
        j.stateBehind before s records, none⟩ := by
  induction records generalizing before s with
  | nil => simp [pass, passage, stateBehind]
  | cons r rest ih =>
    have later := ih (before ++ [r]) _ (fun x member => decodes x (by simp [member]))
      (j.returns_of_cons before s r rest (decodes r (by simp)) returns)
    rw [j.pass_cons_of_handle _ s
      (j.handle_of_returns before s r rest (decodes r (by simp)) returns)]
    simp [later, passage, stateBehind]

theorem pass_start (s : σ) (records : List Record) (decodes : ∀ r ∈ records, r.Decodes)
    (returns : j.Returns j.start s records) :
    j.pass j.start s records =
      ⟨j.passage [] s records, .after j.options.limit records, j.stateBehind [] s records,
        none⟩ := by
  rw [start, ← Tally.after_nil] at returns ⊢
  exact j.pass_after records [] s decodes returns

section Start

variable (s : σ) (records : List Record) (decodes : ∀ r ∈ records, r.Decodes)
  (returns : j.Returns j.start s records)

include decodes returns

/-- The whole run: the passage of the records, and the verdict on all that was found. -/
theorem process_start :
    j.process j.start s records =
      let verdict := j.options.verdict (.after j.options.limit records)
      ⟨j.passage [] s records ++ verdict.1, .after j.options.limit records,
        j.stateBehind [] s records, verdict.2⟩ := by
  have passed := j.pass_start s records decodes returns
  rw [j.process_of_pass _ s records (by rw [passed]), passed]

theorem events_process_start :
    (j.process j.start s records).events =
      j.passage [] s records ++ (j.options.verdict (.after j.options.limit records)).1 := by
  rw [j.process_start s records decodes returns]

theorem error_process_start :
    (j.process j.start s records).error =
      (j.options.verdict (.after j.options.limit records)).2 := by
  rw [j.process_start s records decodes returns]

/-- Over a whole run all records are handed on as they are, in order. -/
theorem emitted_process_start : emitted (j.process j.start s records).events = records := by
  rw [j.events_process_start s records decodes returns, emitted_append, emitted_passage,
    emitted_verdict, List.append_nil]

end Start

end Run

end Judge

end LintRun
