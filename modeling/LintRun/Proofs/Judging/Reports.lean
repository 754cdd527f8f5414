import LintRun.Proofs.Judging.Passage

/-!
# What the reporter gets

The batches of a whole run make up the front part of all findings within the limit, in order, and
each record has at most one of them, in its own turn. The limit is kept across records: where it
falls inside a record, the batch of that record is the part that the records before have left.
-/
namespace LintRun.Judge

variable {σ : Type}

/-- What the turn of a record tells the reporter when `spent` findings came before it: one batch,
a front part of the findings of the record that is not empty, if there are findings and the limit
leaves room; else nothing. -/
def Serves (j : Judge σ) (spent : Nat) (r : Record) (calls : List Batch) : Prop :=
  if r.found ≠ [] ∧ (j.options.limit ≤ 0 ∨ spent < j.options.limit) then
    ∃ b, calls = [b] ∧ b.record = some r ∧ b.options = some j.options ∧
      b.findings ≠ [] ∧ b.findings <+: r.found
  else calls = []

section Reports

variable (j : Judge σ)

/-- The turns of a passage belong to its records, in order; the last turn is what follows. -/
theorem turns_passage (records before : List Record) (s : σ) (verdict : List Event)
    (silent : emitted verdict = []) :
    turns (j.passage before s records ++ verdict) =
      records.mapIdx (fun i r =>
        j.turn (before ++ records.take i) (j.stateBehind before s (records.take i)) r) ++
        [verdict] := by
  induction records generalizing before s with
  | nil => exact turns_of_emitted_nil verdict silent
  | cons r rest ih =>
    rw [passage, List.append_assoc, List.cons_append,
      turns_append_emit _ _ (j.emitted_turn before s r), ih]
    simp [List.mapIdx_cons, stateBehind]

/-- With the batches before, those of further records make up the front part of all findings. -/
theorem upTo_append_reported_passage (write : Reporter σ) (chosen : j.reporter = some write)
    (records before : List Record) (s : σ) :
    upTo j.options.limit (foundIn before) ++
        (reported (j.passage before s records)).flatMap Batch.findings =
      upTo j.options.limit (foundIn (before ++ records)) := by
  induction records generalizing before s with
  | nil => simp [passage, reported]
  | cons r rest ih =>
    have now : (reported (j.turn before s r)).flatMap Batch.findings = j.dueFindings before r := by
      rw [reported_turn, chosen]
      by_cases nothing : j.dueFindings before r = []
      · simp [nothing]
      · simp [nothing, dueBatch]
    have further := ih (before ++ [r]) (j.stateAfter before s r)
    rw [foundIn_append, upTo_append, foundIn_singleton] at further
    rw [passage, reported_append, reported_emit, List.flatMap_append, now, ← List.append_assoc]
    simpa [dueFindings] using further

/-- The turn of a record serves it. -/
theorem serves_turn (write : Reporter σ) (chosen : j.reporter = some write)
    (before : List Record) (s : σ) (r : Record) :
    j.Serves (foundIn before).length r (reported (j.turn before s r)) := by
  have due := j.dueFindings_ne_nil_iff before r
  have room : ¬ IsSpent j.options.limit (foundIn before).length ↔
      j.options.limit ≤ 0 ∨ (foundIn before).length < j.options.limit := by
    unfold IsSpent
    omega
  rw [room] at due
  unfold Serves
  rw [reported_turn, chosen]
  by_cases served : j.dueFindings before r = []
  · rw [if_neg (fun h => due.mpr h served)]
    simp [served]
  · rw [if_pos (due.mp served)]
    refine ⟨j.dueBatch before r, ?_, rfl, rfl, served, share_prefix _ _ _⟩
    simp [served]

section Whole

variable [Wording] (s : σ) (records : List Record) (decodes : ∀ r ∈ records, r.Decodes)
  (returns : j.Returns j.start s records)

include decodes returns

/-- A whole run has a turn for each record, and one for the verdict. -/
theorem turns_process_start :
    turns (j.process j.start s records).events =
      records.mapIdx (fun i r =>
        j.turn (records.take i) (j.stateBehind [] s (records.take i)) r) ++
        [(j.options.verdict (.after j.options.limit records)).1] := by
  rw [j.events_process_start s records decodes returns,
    j.turns_passage records [] s _ (emitted_verdict _ _)]
  simp

/-- The last turn of a whole run is the verdict. -/
theorem verdict_process_start :
    (turns (j.process j.start s records).events)[records.length]? =
      some (j.options.verdict (.after j.options.limit records)).1 := by
  rw [j.turns_process_start s records decodes returns, List.getElem?_append_right (by simp)]
  simp

/-- Over a whole run the reporter gets the front part of all findings within the limit. -/
theorem reported_process_start (write : Reporter σ) (chosen : j.reporter = some write) :
    (reported (j.process j.start s records).events).flatMap Batch.findings =
      upTo j.options.limit (foundIn records) := by
  have batches := j.upTo_append_reported_passage write chosen records [] s
  rw [j.events_process_start s records decodes returns, reported_append, reported_verdict,
    List.append_nil]
  simpa [upTo, foundIn] using batches

end Whole

end Reports

/-- A reporter that leaves the stage alone gets, over a whole run, all findings if there is no limit,
else the front part of them within the limit. The records are handed on one by one, and the turn of
each serves it; the verdict calls the reporter no more. -/
theorem reports_up_to_limit [Wording] (j : Judge σ) (write : Reporter σ) (s : σ)
    (records : List Record) (chosen : j.reporter = some write) (decodes : ∀ r ∈ records, r.Decodes)
    (returns : ∀ c ∈ j.calls j.start s records, (write c.1 c.2).written.error = none ∧
      (write c.1 c.2).left.length = c.1.findings.length) :
    let trace := (j.process j.start s records).events
    let limit := j.options.limit
    let all := foundIn records
    (reported trace).flatMap Batch.findings =
        (if limit ≤ 0 then all else all.take (min limit.toNat all.length)) ∧
      emitted trace = records ∧
      (turns trace).length = records.length + 1 ∧
      (∀ i r, records[i]? = some r → ∃ turn, (turns trace)[i]? = some turn ∧
        j.Serves (foundIn (records.take i)).length r (reported turn)) ∧
      ∃ verdict, (turns trace)[records.length]? = some verdict ∧ reported verdict = [] := by
  have alone : j.Returns j.start s records := by
    intro c called
    simpa [ReturnsFrom, report, chosen] using returns c called
  intro trace limit all
  refine ⟨?_, j.emitted_process_start s records decodes alone, ?_, ?_, ?_⟩
  · rw [← List.take_eq_take_min]
    exact j.reported_process_start s records decodes alone write chosen
  · simp [trace, j.turns_process_start s records decodes alone]
  · intro i r there
    refine ⟨j.turn (records.take i) (j.stateBehind [] s (records.take i)) r, ?_,
      j.serves_turn write chosen _ _ r⟩
    have inside : i < records.length := (List.getElem?_eq_some_iff.mp there).1
    rw [j.turns_process_start s records decodes alone,
      List.getElem?_append_left (by simpa using inside)]
    simp [there]
  · exact ⟨_, j.verdict_process_start s records decodes alone, reported_verdict _ _⟩

section Sample

attribute [local instance] Wording.leftOut

/-- A reporter that writes nothing and leaves its list as it is. -/
def quiet : Reporter Unit := fun b s => ⟨⟨[], none⟩, b.findings, s⟩

/-- A limit of three falls inside the second of two records with two findings each. -/
theorem reports_up_to_limit_inside :
    let j : Judge Unit := ⟨some quiet, ⟨true, 3, false⟩⟩
    let trace := (j.process j.start () [.sample, .sample]).events
    (reported trace).flatMap Batch.findings =
        Record.sampleFindings ++ Record.sampleFindings.take 1 ∧
      ∃ turn, (turns trace)[1]? = some turn ∧ j.Serves 2 .sample (reported turn) := by
  intro j trace
  have decodes : ∀ r ∈ [Record.sample, Record.sample], r.Decodes := by
    simp [Record.sample_decodes]
  obtain ⟨batches, -, -, served, -⟩ := reports_up_to_limit j quiet () [.sample, .sample] rfl decodes
    (fun _ _ => ⟨rfl, rfl⟩)
  constructor
  · rw [batches]
    simp [foundIn, j, Record.sampleFindings]
  · simpa [Record.sampleFindings] using served 1 .sample rfl

/-- A reporter that works off the findings in its list, and then returns. -/
def emptying : Reporter Unit := fun _ s => ⟨⟨[], none⟩, [], s⟩

/-- Two records with two findings each, under a limit of three: nothing counts as reported if the
reporter leaves nothing in its list. -/
theorem pass_emptying :
    let j : Judge Unit := ⟨some emptying, ⟨true, 3, false⟩⟩
    let batch : Batch := ⟨Record.sampleFindings, some .sample, some j.options⟩
    j.pass j.start () [.sample, .sample] =
      ⟨[.report batch, .emit .sample, .report batch, .emit .sample],
        ⟨3, [.sample, .sample], Record.sampleFindings ++ Record.sampleFindings, 0, false⟩, (),
        none⟩ := by
  intro j batch
  have turn : ∀ files fs, j.handle ⟨3, files, fs, 0, false⟩ () .sample =
      ⟨[.report batch], ⟨3, files ++ [.sample], fs ++ Record.sampleFindings, 0, false⟩, (), none⟩ := by
    intro files fs
    rw [handle, Record.sample_findings]
    rfl
  have fresh : j.start = ⟨3, [], [], 0, false⟩ := rfl
  rw [fresh, j.pass_cons_of_handle _ () (turn [] []), List.nil_append, List.nil_append,
    j.pass_cons_of_handle _ () (turn [.sample] Record.sampleFindings)]
  rfl

/-- A reporter that returns, but works off its list, gets more than the limit allows. -/
theorem emptied_list_exceeds_limit :
    let j : Judge Unit := ⟨some emptying, ⟨true, 3, false⟩⟩
    let records := [Record.sample, Record.sample]
    (∀ r ∈ records, r.Decodes) ∧ (∀ b s, (emptying b s).written.error = none) ∧
      (reported (j.process j.start () records).events).flatMap Batch.findings ≠
        (foundIn records).take (min 3 (foundIn records).length) := by
  intro j records
  have found : foundIn records = Record.sampleFindings ++ Record.sampleFindings := by
    simp [foundIn, records]
  refine ⟨by simp [records, Record.sample_decodes], fun _ _ => rfl, ?_⟩
  rw [reported_process, pass_emptying, found]
  decide

end Sample

end LintRun.Judge
