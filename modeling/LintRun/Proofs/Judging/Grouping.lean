import LintRun.Proofs.Judging.Verdict

/-!
# Findings in any grouping

A reporter that writes a line for each finding, whatever file it is found in, gets the same lines
out of the same findings, however they are spread over records. What a stage with such a reporter
puts on the log, and how it ends, is written down here as a function of all findings
(`told_process_start`), so the way in which they are spread over records cannot matter.
-/
namespace LintRun

namespace Written

@[simp] theorem nil_append (w : Written) : append ⟨[], none⟩ w = w := rfl

@[simp] theorem append_nil (w : Written) : w.append ⟨[], none⟩ = w := by
  obtain ⟨lines, error⟩ := w
  cases error with
  | none => simp [append]
  | some e => rfl

theorem append_of_error (first second : Written) (e : Error) (failed : first.error = some e) :
    first.append second = first := by
  rw [append, failed]

theorem append_of_none (first second : Written) (reached : first.error = none) :
    first.append second = ⟨first.lines ++ second.lines, second.error⟩ := by
  rw [append, reached]

theorem append_assoc (first second third : Written) :
    (first.append second).append third = first.append (second.append third) := by
  cases ending : first.error with
  | some e => simp [append_of_error _ _ e ending]
  | none =>
    rw [append_of_none _ _ ending, append_of_none _ _ ending]
    cases later : second.error with
    | some e => simp [append, later]
    | none => simp [append, later]

/-- Lines for findings can be written piece by piece. -/
theorem each_append (c : Channel) (line : Finding → Except Excess String)
    (first second : List Finding) :
    each c line (first ++ second) = (each c line first).append (each c line second) := by
  induction first with
  | nil => rfl
  | cons f rest ih => rw [List.cons_append, each, each, ih, append_assoc]

end Written

/-- A reporter that writes a line for each finding, looks at nothing else, and changes nothing. -/
def Reporter.IsLinewise {σ : Type} (write : Reporter σ) (c : Channel)
    (line : Finding → Except Excess String) : Prop :=
  ∀ b s, write b s = ⟨.each c line b.findings, b.findings, s⟩

section BuiltIn

variable {σ : Type}

theorem ReporterName.prose_isLinewise :
    (prose.reporter : Reporter σ).IsLinewise .error Finding.prose := fun _ _ => rfl

theorem ReporterName.verbose_isLinewise :
    (verbose.reporter : Reporter σ).IsLinewise .error (·.verbose none) := fun _ _ => rfl

/-- What a ruling puts on the log, and the error that it ends with. -/
def Ruling.told (r : Ruling σ) : Written := ⟨logged r.events, r.error⟩

theorem Ruling.told_andThen (now : Ruling σ) (next : Tally → σ → Ruling σ) :
    (now.andThen next).told = now.told.append (next now.tally now.state).told := by
  cases ending : now.error with
  | some e =>
    rw [now.andThen_of_error _ e ending, Written.append_of_error _ _ e ending]
  | none =>
    rw [now.andThen_of_none _ ending, Written.append_of_none _ _ ending]
    simp [told]

end BuiltIn

namespace Judge

def noticeLine (limit : Int) (reached : Prop) [Decidable reached] : Written where
  lines :=
    if reached then [⟨.info, s!"More than {limit} failures reported. Turning off reporter."⟩] else []
  error := none

theorem noticeLine_of_not {limit : Int} {reached : Prop} [Decidable reached]
    (unreached : ¬ reached) : noticeLine limit reached = ⟨[], none⟩ := by
  rw [noticeLine, if_neg unreached]

theorem noticeLine_congr {limit : Int} {first second : Prop} [Decidable first] [Decidable second]
    (same : first ↔ second) : noticeLine limit first = noticeLine limit second := by
  simp only [noticeLine, same]

variable {σ : Type}

section Linewise

variable (j : Judge σ) {c : Channel} {line : Finding → Except Excess String} {write : Reporter σ}
  (chosen : j.reporter = some write) (linewise : write.IsLinewise c line)

include chosen linewise

theorem told_report (b : Batch) (s : σ) :
    logged (j.report b s).1 = (Written.each c line b.findings).lines ∧
      (j.report b s).2 = ⟨.each c line b.findings, b.findings, s⟩ := by
  have lines (ls : List LogLine) :
      logged (.report b :: ls.map fun l => .log l.channel l.words) = ls := by
    induction ls with
    | nil => rfl
    | cons l rest ih => exact congrArg (l :: ·) ih
  unfold report
  rw [chosen]
  dsimp only
  rw [linewise b s]
  exact ⟨lines _, rfl⟩

variable [Wording]

/-- A record has its turn if the lines of the findings that are due can be written. -/
theorem handle_of_written (before : List Record) (s : σ) (r : Record) (decodes : r.Decodes)
    (written : (Written.each c line (j.dueFindings before r)).error = none) :
    j.handle (.after j.options.limit before) s r =
      ⟨j.turn before s r, .after j.options.limit (before ++ [r]), j.stateAfter before s r,
        none⟩ := by
  refine j.handle_after before s r decodes fun b called => ?_
  rw [j.reported_handle before s r decodes] at called
  split at called
  · obtain rfl := List.mem_singleton.mp called
    rw [ReturnsFrom, (j.told_report chosen linewise _ s).2]
    exact ⟨written, rfl⟩
  · cases called

/-- One record: the lines of the findings that are due, then the notice if it brings what was found
to the limit. -/
theorem told_handle (before : List Record) (s : σ) (r : Record) (decodes : r.Decodes) :
    (j.handle (.after j.options.limit before) s r).told =
      (Written.each c line (j.dueFindings before r)).append
        (noticeLine j.options.limit (j.Crosses before r)) := by
  obtain ⟨lines, ending⟩ := j.told_report chosen linewise (j.dueBatch before r) s
  change _ = (Written.each c line (j.dueFindings before r)).lines at lines
  cases failed : (Written.each c line (j.dueFindings before r)).error with
  | some e =>
    have due : j.dueFindings before r ≠ [] := by
      intro nothing
      rw [nothing] at failed
      cases failed
    rw [j.handle_of_error before s r decodes due (by rw [ending]; exact failed),
      Written.append_of_error _ _ e failed]
    simp [Ruling.told, lines, ← failed]
  | none =>
    rw [j.handle_of_written chosen linewise before s r decodes failed,
      Written.append_of_none _ _ failed]
    by_cases nothing : j.dueFindings before r = []
    · have uncrossed : ¬ j.Crosses before r := fun crosses => crosses.dueFindings_ne_nil nothing
      simp [nothing, turn, Ruling.told, logged, Written.each, noticeLine, uncrossed]
    · have said : logged [notice j.options.limit] = [⟨.info,
          s!"More than {j.options.limit} failures reported. Turning off reporter."⟩] := rfl
      by_cases crosses : j.Crosses before r
      · simp only [Ruling.told, turn, nothing, lines, crosses, noticeLine, if_true, if_false,
          logged_append, said]
      · simp [Ruling.told, turn, nothing, lines, crosses, noticeLine]

theorem told_step (before : List Record) (s : σ) (r : Record) (decodes : r.Decodes) :
    (j.step (.after j.options.limit before) s r).told =
      (Written.each c line (j.dueFindings before r)).append
        (noticeLine j.options.limit (j.Crosses before r)) := by
  rw [step, Ruling.told_andThen, j.told_handle chosen linewise before s r decodes]
  exact Written.append_nil _

/-- Records that come after the records `before`: the lines of all findings within what the limit
leaves, the notice if they bring what was found to the limit, and the verdict. -/
theorem told_process (records before : List Record) (s : σ) (decodes : ∀ r ∈ records, r.Decodes) :
    (j.process (.after j.options.limit before) s records).told =
      (Written.each c line (share j.options.limit (foundIn before).length (foundIn records))).append
        ((noticeLine j.options.limit (j.Reaches before records)).append
          (j.finish (.after j.options.limit (before ++ records)) s).told) := by
  induction records generalizing before s with
  | nil =>
    have nothing : share j.options.limit (foundIn before).length (foundIn []) = [] :=
      (share_eq_nil_iff _ _ _).mpr (.inl rfl)
    rw [nothing, List.append_nil, noticeLine_of_not (j.not_reaches_nil before)]
    rfl
  | cons r rest ih =>
    have decodesNow := decodes r (by simp)
    have parts : share j.options.limit (foundIn before).length (foundIn (r :: rest)) =
        j.dueFindings before r ++
          share j.options.limit (foundIn (before ++ [r])).length (foundIn rest) := by
      rw [foundIn_append, foundIn_singleton, List.length_append]
      exact share_append _ _ _ _
    rw [process_cons, Ruling.told_andThen, j.told_step chosen linewise before s r decodesNow, parts,
      Written.each_append, Written.append_assoc, Written.append_assoc]
    cases ending : (Written.each c line (j.dueFindings before r)).error with
    | some e => rw [Written.append_of_error _ _ e ending, Written.append_of_error _ _ e ending]
    | none =>
      congr 1
      have counted : (j.step (.after j.options.limit before) s r).tally =
          .after j.options.limit (before ++ [r]) := by
        rw [step, j.handle_of_written chosen linewise before s r decodesNow ending]
        rfl
      have later := ih (before ++ [r]) (j.step (.after j.options.limit before) s r).state
        (fun x member => decodes x (by simp [member]))
      rw [List.append_assoc, List.singleton_append] at later
      rw [counted, later]
      by_cases crosses : j.Crosses before r
      · -- The limit is spent, so no findings of later records are due, and no other notice is.
        have nothing : share j.options.limit (foundIn (before ++ [r])).length (foundIn rest) = [] :=
          (share_eq_nil_iff _ _ _).mpr (.inr crosses.2)
        have whole := (j.reaches_cons_iff before r rest).mpr (.inl crosses)
        rw [nothing, noticeLine_of_not (crosses.not_reaches rest),
          noticeLine_congr (iff_of_true crosses whole)]
        rfl
      · have later := (j.reaches_cons_iff before r rest).trans (or_iff_right crosses)
        rw [noticeLine_of_not crosses, noticeLine_congr later]
        rfl

/-- What a whole run puts on the log, and how it ends, told from all findings. -/
theorem told_process_start (records : List Record) (s : σ) (decodes : ∀ r ∈ records, r.Decodes) :
    (j.process j.start s records).told =
      (Written.each c line (upTo j.options.limit (foundIn records))).append
        ((noticeLine j.options.limit (IsSpent j.options.limit (foundIn records).length)).append
          (j.finish (.after j.options.limit records) s).told) := by
  have whole := j.told_process chosen linewise records [] s decodes
  rw [List.nil_append, noticeLine_congr (j.reaches_start_iff records), Tally.after_nil] at whole
  simpa [start, share_zero, foundIn] using whole

end Linewise

/-- The verdict depends on all findings only. -/
theorem told_finish_congr (j : Judge σ) (first second : List Record) (s : σ)
    (same : foundIn first = foundIn second) :
    (j.finish (.after j.options.limit first) s).told =
      (j.finish (.after j.options.limit second) s).told := by
  have verdict : j.options.verdict (.after j.options.limit first) =
      j.options.verdict (.after j.options.limit second) := by
    by_cases nothing : foundIn first = []
    · rw [j.options.verdict_of_none_found first nothing,
        j.options.verdict_of_none_found second (same ▸ nothing)]
    · have summary := j.options.summary?_after second (same ▸ nothing)
      rw [← same, ← j.options.summary?_after first nothing] at summary
      simp only [ReportOptions.verdict, summary]
  simp only [finish, verdict, Ruling.told]

/-- The lines on the log, in order, and the error that ends the run, are the same whenever records
hold the same findings one after the other, in whatever grouping. -/
theorem grouping_of_findings [Wording] (name : ReporterName)
    (linewise : name = .prose ∨ name = .verbose)
    (options : ReportOptions) (s : σ) (first second : List Record)
    (decodesFirst : ∀ r ∈ first, r.Decodes) (decodesSecond : ∀ r ∈ second, r.Decodes)
    (same : foundIn first = foundIn second) :
    let j : Judge σ := ⟨some name.reporter, options⟩
    logged (j.process j.start s first).events = logged (j.process j.start s second).events ∧
      (j.process j.start s first).error = (j.process j.start s second).error := by
  intro j
  have told : (j.process j.start s first).told = (j.process j.start s second).told := by
    have verdict := j.told_finish_congr first second s same
    rcases linewise with rfl | rfl
    · rw [j.told_process_start rfl ReporterName.prose_isLinewise first s decodesFirst,
        j.told_process_start rfl ReporterName.prose_isLinewise second s decodesSecond, same,
        verdict]
    · rw [j.told_process_start rfl ReporterName.verbose_isLinewise first s decodesFirst,
        j.told_process_start rfl ReporterName.verbose_isLinewise second s decodesSecond, same,
        verdict]
  exact Written.mk.inj told

end Judge

namespace Record

/-- What a linter prints about the first finding of the sample. -/
def earlyText : String :=
  "[\x7b\"name\":\"a.ts\",\"failure\":\"early\",
  \"startPosition\":\x7b\"line\":0,\"character\":1\x7d,
  \"endPosition\":\x7b\"line\":0,\"character\":2\x7d,\"ruleName\":\"r\"\x7d]"

/-- What a linter prints about the second one. -/
def lateText : String :=
  "[\x7b\"name\":\"a.ts\",\"failure\":\"late\",
  \"startPosition\":\x7b\"line\":4,\"character\":0\x7d,
  \"endPosition\":\x7b\"line\":4,\"character\":3\x7d,\"ruleName\":\"r\"\x7d]"

/-- The record of the sample with another payload, or without one. -/
def answered (output : Option String) : Record :=
  { sample with lint := output.map fun text => ⟨text, "json"⟩ }

theorem answered_early_decoded :
    (answered (some earlyText)).decoded = .ok (sampleFindings.take 1) := by
  have linted : (answered (some earlyText)).lint = some ⟨earlyText, "json"⟩ := rfl
  refine decoded_of_decodeText linted ?_
  rw [earlyText, Payload.decodeText_ofList]
  decide +kernel

theorem answered_late_decoded :
    (answered (some lateText)).decoded = .ok (sampleFindings.drop 1) := by
  have linted : (answered (some lateText)).lint = some ⟨lateText, "json"⟩ := rfl
  refine decoded_of_decodeText linted ?_
  rw [lateText, Payload.decodeText_ofList]
  decide +kernel

theorem answered_none_decoded : (answered none).decoded = .ok [] := rfl

/-- The findings of the sample in two records, with one that was never linted between them. -/
def sampleParts : List Record :=
  [answered (some earlyText), answered none, answered (some lateText)]

theorem sampleParts_decodes : ∀ r ∈ sampleParts, r.Decodes := by
  simpa [sampleParts, Decodes] using
    ⟨⟨_, answered_early_decoded⟩, ⟨_, answered_none_decoded⟩, ⟨_, answered_late_decoded⟩⟩

theorem foundIn_sampleParts : foundIn sampleParts = foundIn [sample] := by
  simp only [sampleParts, foundIn, List.flatMap_cons, List.flatMap_nil, List.append_nil,
    found_of_decoded answered_early_decoded, found_of_decoded answered_none_decoded,
    found_of_decoded answered_late_decoded, sample_found]
  rfl

end Record

section Sample

attribute [local instance] Wording.leftOut

/-- The findings of one record, and the same findings in two, with a limit between them. -/
theorem grouping_of_findings_parts :
    let j : Judge Unit := ⟨some ReporterName.prose.reporter, ⟨true, 1, false⟩⟩
    foundIn Record.sampleParts = foundIn [.sample] ∧
      logged (j.process j.start () Record.sampleParts).events =
        logged (j.process j.start () [.sample]).events := by
  intro j
  refine ⟨Record.foundIn_sampleParts, ?_⟩
  exact (Judge.grouping_of_findings .prose (.inl rfl) ⟨true, 1, false⟩ () Record.sampleParts
    [.sample] Record.sampleParts_decodes (by simp [Record.sample_decodes])
    Record.foundIn_sampleParts).1

end Sample

end LintRun
