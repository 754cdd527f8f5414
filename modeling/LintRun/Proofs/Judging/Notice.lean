import LintRun.Proofs.Judging.Verdict

/-!
# The notice

With a limit, a run tells once that the limit is reached. Each turn tells it exactly if its record
brings what was found to the limit, and of the records of a run at most one does. A reporter may
write the same words, so its own lines are counted apart.
-/
namespace LintRun

def Event.isNotice (limit : Int) : Event → Bool
  | .log .info words => words = s!"More than {limit} failures reported. Turning off reporter."
  | _ => false

def notices (limit : Int) (trace : List Event) : Nat := trace.countP (Event.isNotice limit)

@[simp] theorem notices_append (limit : Int) (first second : List Event) :
    notices limit (first ++ second) = notices limit first + notices limit second :=
  List.countP_append

@[simp] theorem notices_emit (limit : Int) (r : Record) (trace : List Event) :
    notices limit (.emit r :: trace) = notices limit trace := by
  simp [notices, Event.isNotice]

/-- The verdict never tells that a limit is reached. -/
theorem notices_verdict (limit : Int) (o : ReportOptions) (t : Tally) :
    notices limit (o.verdict t).1 = 0 := by
  unfold ReportOptions.verdict
  split
  · rfl
  · rfl
  · next final said =>
    have failed := Tally.head?_message_of_summary? said
    have told : (s!"More than {limit} failures reported. Turning off reporter.").toList.head? =
        some 'M' := by
      rw [String.append_assoc]
      exact head?_ofList_append _ _ _
    have other : final.message ≠
        s!"More than {limit} failures reported. Turning off reporter." := by
      intro same
      rw [same, told] at failed
      cases failed
    have silent : Event.isNotice limit (.log .info final.message) = false := decide_eq_false other
    split
    · rfl
    · dsimp only
      split
      · simp [notices, silent]
      · rfl

namespace Judge

variable {σ : Type}

/-- What the reporter writes in calls, with the calls. -/
def heard (j : Judge σ) (calls : List (Batch × σ)) : List Event :=
  calls.flatMap fun c => (j.report c.1 c.2).1

@[simp] theorem heard_append (j : Judge σ) (first second : List (Batch × σ)) :
    j.heard (first ++ second) = j.heard first ++ j.heard second := List.flatMap_append

theorem heard_report (j : Judge σ) (b : Batch) (s : σ) :
    j.heard ((reported (j.report b s).1).map (·, s)) = (j.report b s).1 := by
  rw [reported_report]
  cases chosen : j.reporter with
  | none => simp [heard, report, chosen]
  | some write => simp [heard]

section Turn

variable (j : Judge σ) (before : List Record) (s : σ) (r : Record)

/-- What is reported of a record that brings what was found to the limit is just what was missing
to it. -/
theorem Crosses.length_dueFindings {j : Judge σ} {before : List Record} {r : Record}
    (crosses : j.Crosses before r) :
    ((foundIn before).length + (j.dueFindings before r).length : Int) = j.options.limit := by
  obtain ⟨unspent, spent⟩ := crosses
  unfold IsSpent at unspent spent
  rw [foundIn_append, foundIn_singleton, List.length_append] at spent
  unfold dueFindings share
  rw [if_neg (by omega), List.length_take]
  omega

theorem turn_of_crosses (crosses : j.Crosses before r) :
    j.turn before s r =
      (j.report (j.dueBatch before r) s).1 ++ [notice j.options.limit] := by
  rw [turn, if_neg crosses.dueFindings_ne_nil, if_pos crosses]

/-- One turn: the notice stands once more than the reporter writes it if the record brings what was
found to the limit, else just as often. -/
theorem notices_turn :
    notices j.options.limit (j.turn before s r) =
      notices j.options.limit (j.heard ((reported (j.turn before s r)).map (·, s))) +
        if j.Crosses before r then 1 else 0 := by
  by_cases crosses : j.Crosses before r
  · rw [j.turn_of_crosses before s r crosses, if_pos crosses, reported_append, List.map_append,
      heard_append, heard_report]
    simp [notices, heard, notice, reported, Event.isNotice]
  · rw [if_neg crosses]
    unfold turn
    split
    · rfl
    · simp only [List.append_nil, heard_report, Nat.add_zero]

end Turn

section Passage

variable (j : Judge σ)

theorem reported_passage_of_isSpent (records before : List Record) (s : σ)
    (spent : IsSpent j.options.limit (foundIn before).length) :
    reported (j.passage before s records) = [] := by
  induction records generalizing before s with
  | nil => rfl
  | cons r rest ih =>
    have nothing : j.dueFindings before r = [] := (share_eq_nil_iff _ _ _).mpr (.inr spent)
    rw [passage, reported_append, reported_emit, reported_turn, ih _ _ (spent.append [r])]
    simp [nothing]

/-- Records that bring what was found to the limit do so with one of them. -/
theorem exists_crosses (records before : List Record) (reaches : j.Reaches before records) :
    ∃ first r later, records = first ++ r :: later ∧ j.Crosses (before ++ first) r := by
  induction records generalizing before with
  | nil => exact absurd reaches (j.not_reaches_nil before)
  | cons r rest ih =>
    obtain now | further := (j.reaches_cons_iff before r rest).mp reaches
    · exact ⟨[], r, rest, rfl, by simpa using now⟩
    · obtain ⟨first, r', later, rfl, crosses⟩ := ih _ further
      exact ⟨r :: first, r', later, rfl, by simpa using crosses⟩

variable [Wording]

/-- Over records that come after the records `before` the notice is told once if they bring what
was found to the limit, else never. -/
theorem notices_passage (records before : List Record) (s : σ)
    (decodes : ∀ r ∈ records, r.Decodes)
    (returns : j.Returns (.after j.options.limit before) s records) :
    notices j.options.limit (j.passage before s records) =
      notices j.options.limit (j.heard (j.calls (.after j.options.limit before) s records)) +
        if j.Reaches before records then 1 else 0 := by
  induction records generalizing before s with
  | nil => simp [passage, heard, calls, notices, not_reaches_nil]
  | cons r rest ih =>
    have further := ih (before ++ [r]) _ (fun x member => decodes x (by simp [member]))
      (j.returns_of_cons before s r rest (decodes r (by simp)) returns)
    rw [j.calls_cons before s r rest (decodes r (by simp)) returns, passage, notices_append,
      notices_emit, heard_append, notices_append, notices_turn, further]
    by_cases crosses : j.Crosses before r
    · simp only [reaches_cons_iff, crosses, crosses.not_reaches rest, if_true, if_false, or_false]
      omega
    · simp only [reaches_cons_iff, crosses, if_false, false_or]
      omega

section Start

variable (s : σ) (records : List Record) (decodes : ∀ r ∈ records, r.Decodes)
  (returns : j.Returns j.start s records)

include decodes returns

/-- Over a whole passage the notice is told once if the findings come to the limit, else never. -/
theorem notices_passage_start :
    notices j.options.limit (j.passage [] s records) =
      notices j.options.limit (j.heard (j.calls j.start s records)) +
        if IsSpent j.options.limit (foundIn records).length then 1 else 0 := by
  rw [start, ← Tally.after_nil] at returns ⊢
  simp only [j.notices_passage records [] s decodes returns, reaches_start_iff]

/-- The state in which the reporter gets what is due of a record is the one behind the records
before. -/
theorem call_of_due {write : Reporter σ} (chosen : j.reporter = some write)
    {before later : List Record} {r : Record} (parts : records = before ++ r :: later)
    (due : j.dueFindings before r ≠ []) :
    (j.dueBatch before r, j.stateBehind [] s before) ∈ j.calls j.start s records := by
  subst parts
  have front := j.pass_start s before (fun x member => decodes x (by simp [member])) returns.front
  rw [calls_append, front]
  refine List.mem_append_right _ ?_
  have called : j.dueBatch before r ∈
      reported (j.handle (.after j.options.limit before) (j.stateBehind [] s before) r).events := by
    rw [j.reported_handle before _ r (decodes r (by simp))]
    simp [due, chosen]
  rw [calls]
  exact List.mem_append_left _ (List.mem_map_of_mem called)

/-- A run around a record that brings what was found to the limit: the notice stands between the
call of the reporter and the record. -/
theorem events_process_of_crosses {before later : List Record} {r : Record}
    (parts : records = before ++ r :: later) (crosses : j.Crosses before r) :
    let state := j.stateBehind [] s before
    (j.process j.start s records).events =
      j.passage [] s before ++ ((j.report (j.dueBatch before r) state).1 ++
        notice j.options.limit :: .emit r ::
          (j.passage (before ++ [r]) (j.stateAfter before state r) later ++
            (j.options.verdict (.after j.options.limit records)).1)) := by
  rw [j.events_process_start s records decodes returns]
  subst parts
  rw [passage_append, passage, List.nil_append, j.turn_of_crosses before _ r crosses]
  simp only [List.append_assoc, List.cons_append, List.nil_append]

/-- The first records of a run pass, and the notice is told over them if they come to the limit. -/
theorem pass_take_start (k : Nat) :
    j.pass j.start s (records.take k) =
        ⟨j.passage [] s (records.take k), .after j.options.limit (records.take k),
          j.stateBehind [] s (records.take k), none⟩ ∧
      notices j.options.limit (j.passage [] s (records.take k)) =
        notices j.options.limit (j.heard (j.calls j.start s (records.take k))) +
          if IsSpent j.options.limit (foundIn (records.take k)).length then 1 else 0 := by
  have decodesFront : ∀ r ∈ records.take k, r.Decodes :=
    fun r member => decodes r (List.mem_of_mem_take member)
  rw [← List.take_append_drop k records] at returns
  exact ⟨j.pass_start s _ decodesFront returns.front,
    j.notices_passage_start s _ decodesFront returns.front⟩

end Start

end Passage

/-- If the findings come to the limit, the notice stands in the trace once more than the reporter
writes it, else just as often. It stands right behind the call of the reporter that brings what was
reported to the limit, before the record is handed on, and the reporter is called no more. After
each record the limit counts as reached exactly if the notice was told. -/
theorem notice_once_at_limit [Wording] {σ : Type} (j : Judge σ) (s : σ) (records : List Record)
    (decodes : ∀ r ∈ records, r.Decodes) (returns : j.Returns j.start s records) :
    let run := j.process j.start s records
    let limit := j.options.limit
    let all := foundIn records
    notices limit run.events =
        notices limit (j.heard (j.calls j.start s records)) +
          (if 0 < limit ∧ limit ≤ all.length then 1 else 0) ∧
      (0 < limit → limit ≤ all.length →
        ∃ before r later batch state first rest,
          records = before ++ r :: later ∧
            batch.record = some r ∧ batch.findings ≠ [] ∧ batch.findings <+: r.found ∧
            ((foundIn before).length + batch.findings.length : Int) = limit ∧
            (∀ write, j.reporter = some write → (batch, state) ∈ j.calls j.start s records) ∧
            run.events =
              first ++ ((j.report batch state).1 ++ .log .info
                s!"More than {limit} failures reported. Turning off reporter." ::
                .emit r :: rest) ∧
            emitted first = before ∧ reported rest = []) ∧
      ∀ k,
        let front := j.pass j.start s (records.take k)
        run = (front.andThen fun t s => j.process t s (records.drop k)) ∧ front.error = none ∧
          emitted front.events = records.take k ∧
          notices limit front.events =
            notices limit (j.heard (j.calls j.start s (records.take k))) +
              (if front.tally.suppressed then 1 else 0) := by
  intro run limit all
  refine ⟨?_, ?_, ?_⟩
  · have whole : run.events = _ := j.events_process_start s records decodes returns
    rw [whole, notices_append, notices_verdict, Nat.add_zero]
    exact j.notices_passage_start s records decodes returns
  · intro positive within
    obtain ⟨before, r, later, parts, crosses⟩ :=
      j.exists_crosses records [] ((j.reaches_start_iff records).mpr ⟨positive, within⟩)
    rw [List.nil_append] at crosses
    refine ⟨before, r, later, j.dueBatch before r, j.stateBehind [] s before, _, _,
      parts, rfl, crosses.dueFindings_ne_nil, share_prefix _ _ _, crosses.length_dueFindings,
      fun write chosen =>
        j.call_of_due s records decodes returns chosen parts crosses.dueFindings_ne_nil,
      j.events_process_of_crosses s records decodes returns parts crosses,
      j.emitted_passage before [] s, ?_⟩
    rw [reported_append, reported_verdict, List.append_nil]
    exact j.reported_passage_of_isSpent later (before ++ [r]) _ crosses.2
  · intro k front
    have parts : run = front.andThen fun t s => j.process t s (records.drop k) := by
      rw [← process_append, List.take_append_drop]
    obtain ⟨passed, often⟩ := j.pass_take_start s records decodes returns k
    have reached : front = _ := passed
    rw [reached]
    refine ⟨by rw [parts, reached], rfl, j.emitted_passage _ _ _, ?_⟩
    simpa [Tally.after] using often

section Sample

attribute [local instance] Wording.leftOut

/-- Two records with two findings each reach a limit of three with the second record. -/
theorem notice_once_at_limit_inside :
    let j : Judge Unit := ⟨some quiet, ⟨true, 3, false⟩⟩
    notices j.options.limit (j.process j.start () [.sample, .sample]).events ≠ 0 ∧
      (j.pass j.start () ([.sample, .sample].take 1)).error = none := by
  intro j
  have decodes : ∀ r ∈ [Record.sample, Record.sample], r.Decodes := by
    simp [Record.sample_decodes]
  have reached : 0 < j.options.limit ∧
      j.options.limit ≤ (foundIn [.sample, .sample]).length := by
    simp [foundIn, j, Record.sampleFindings]
  obtain ⟨often, -, flag⟩ :=
    notice_once_at_limit j () [.sample, .sample] decodes (fun _ _ => ⟨rfl, rfl⟩)
  obtain ⟨-, passes, -, -⟩ := flag 1
  rw [if_pos reached] at often
  exact ⟨fun none => Nat.add_one_ne_zero _ (often.symm.trans none), passes⟩

/-- A reporter that returns, but works off its list, is never turned off, and nobody is told. -/
theorem emptied_list_hides_limit :
    let j : Judge Unit := ⟨some emptying, ⟨true, 3, false⟩⟩
    let records := [Record.sample, Record.sample]
    let run := j.process j.start () records
    (∀ r ∈ records, r.Decodes) ∧ (∀ b s, (emptying b s).written.error = none) ∧
      0 < j.options.limit ∧ j.options.limit ≤ (foundIn records).length ∧
      notices j.options.limit run.events = 0 ∧ run.tally.suppressed = false := by
  intro j records run
  have passed : j.pass j.start () records = _ := pass_emptying
  have whole : run = _ := j.process_of_pass j.start () records (by rw [passed])
  refine ⟨by simp [records, Record.sample_decodes], fun _ _ => rfl, by decide, ?_, ?_, ?_⟩
  · simp [records, foundIn, Record.sampleFindings, j]
  · rw [whole, notices_append, notices_verdict, passed]
    simp [notices, Event.isNotice]
  · rw [whole, passed]

end Sample

end Judge

end LintRun
