import LintRun.Proofs.Judging.Reports

/-!
# The verdict

The final message covers what the reporter got: the tally cuts all findings down a second time,
and both cuts are the front part within the limit. What is left out is counted. A place whose line
or column has too many digits once it is counted from one cannot be put into words; unless the
message is a mere number of errors, such a place among the covered findings ends the run with an
error of its own, whether or not findings fail the run.
-/
namespace LintRun

/-- The line of a finding, whatever its place. -/
def Finding.proseWords (f : Finding) : String :=
  s!"{f.file}[{f.start.line + 1}, {f.start.column + 1}]: {f.message}"

def verdictBody (summarizes : Bool) (covered : List Finding) : String :=
  if summarizes then s!"{covered.length} errors."
  else String.intercalate ", " (covered.map Finding.proseWords) ++ "."

/-- The final message over covered findings, with the number of those left out. -/
def verdictWords (summarizes : Bool) (covered : List Finding) (ignored : Nat) : String :=
  "Failed to lint: " ++ verdictBody summarizes covered
    ++ (if 0 < ignored then s!" ({ignored} other errors not shown.)" else "")

theorem head?_ofList_append (c : Char) (cs : List Char) (rest : String) :
    (String.ofList (c :: cs) ++ rest).toList.head? = some c := by simp

theorem head?_verdictWords (summarizes : Bool) (covered : List Finding) (ignored : Nat) :
    (verdictWords summarizes covered ignored).toList.head? = some 'F' := by
  unfold verdictWords
  rw [String.append_assoc]
  exact head?_ofList_append _ _ _

def ReportOptions.CanSay (o : ReportOptions) (fs : List Finding) : Prop :=
  o.summarizes = true ∨ ∀ f ∈ fs, f.isFarOff = false

theorem Finding.mapM_prose (fs : List Finding) :
    (fs.mapM Finding.prose = .ok (fs.map Finding.proseWords) ∧ ∀ f ∈ fs, f.isFarOff = false) ∨
      (fs.mapM Finding.prose = .error .spelling ∧ ∃ f ∈ fs, f.isFarOff = true) := by
  induction fs with
  | nil => exact .inl ⟨rfl, by simp⟩
  | cons f rest ih =>
    cases far : f.isFarOff with
    | true =>
      refine .inr ⟨?_, f, by simp, far⟩
      simp [prose, showing, far, bind, Except.bind]
    | false =>
      have said : f.prose = .ok f.proseWords := by
        rw [prose, showing, far]
        rfl
      rcases ih with ⟨all, near⟩ | ⟨none, g, member, gFar⟩
      · refine .inl ⟨?_, by simpa [far] using near⟩
        simp [said, all, bind, Except.bind, pure, Except.pure]
      · refine .inr ⟨?_, g, by simp [member], gFar⟩
        simp [said, none, bind, Except.bind]

namespace Tally

theorem body_of_canSay (o : ReportOptions) (fs : List Finding) (sayable : o.CanSay fs) :
    body o.summarizes fs = .ok (verdictBody o.summarizes fs) := by
  cases summarizes : o.summarizes with
  | true => simp [body, verdictBody]
  | false =>
    rcases Finding.mapM_prose fs with ⟨all, -⟩ | ⟨-, f, member, far⟩
    · simp [body, verdictBody, all, Except.map]
    · rcases sayable with counts | near
      · rw [summarizes] at counts
        cases counts
      · rw [near f member] at far
        cases far

/-- The final message is the one over the covered findings, if it can be put into words. -/
theorem summaryOf_of_canSay (o : ReportOptions) (fs : List Finding) (ignored : Nat)
    (sayable : o.CanSay fs) :
    summaryOf o.summarizes fs ignored =
      .ok ⟨verdictWords o.summarizes fs ignored, fs, ignored⟩ := by
  rw [summaryOf, body_of_canSay o fs sayable]
  cases ignored with
  | zero => rfl
  | succ n => rfl

theorem summaryOf_of_not_canSay (o : ReportOptions) (fs : List Finding) (ignored : Nat)
    (unsayable : ¬ o.CanSay fs) : summaryOf o.summarizes fs ignored = .error .spelling := by
  cases summarizes : o.summarizes with
  | true => exact absurd (.inl summarizes) unsayable
  | false =>
    rcases Finding.mapM_prose fs with ⟨-, near⟩ | ⟨none, -⟩
    · exact absurd (.inr near) unsayable
    · simp [summaryOf, body, none, Except.map]

/-- Every final message starts alike. -/
theorem head?_message_of_summary? {t : Tally} {summarizes : Bool} {final : Summary}
    (said : t.summary? summarizes = .ok (some final)) : final.message.toList.head? = some 'F' := by
  unfold summary? summaryOf at said
  split at said
  · cases said
  · cases told : body summarizes t.covered with
    | error x => simp [told, Except.map] at said
    | ok words =>
      simp only [told, Except.map, Except.ok.injEq, Option.some.injEq] at said
      rw [← said, String.append_assoc]
      exact head?_ofList_append _ _ _

end Tally

namespace ReportOptions

variable (o : ReportOptions) (records : List Record)

/-- Nothing found is no verdict. -/
theorem verdict_of_none_found (nothing : foundIn records = []) :
    o.verdict (.after o.limit records) = ([], none) := by
  have noFiles := (Tally.files_after_eq_nil_iff o.limit records).mpr nothing
  simp [verdict, Tally.summary?, noFiles]

theorem summary?_after (something : foundIn records ≠ []) :
    (Tally.after o.limit records).summary? o.summarizes =
      (Tally.summaryOf o.summarizes (upTo o.limit (foundIn records))
        ((foundIn records).length - (upTo o.limit (foundIn records)).length)).map some := by
  have files := mt (Tally.files_after_eq_nil_iff o.limit records).mp something
  unfold Tally.summary?
  rw [if_neg (by simpa using files)]
  rfl

/-- Findings that can be put into words fail the run, or are summed up on the log, or neither. -/
theorem verdict_of_canSay (something : foundIn records ≠ [])
    (sayable : o.CanSay (upTo o.limit (foundIn records))) :
    let covered := upTo o.limit (foundIn records)
    let ignored := (foundIn records).length - covered.length
    let words := verdictWords o.summarizes covered ignored
    o.verdict (.after o.limit records) =
      if o.failsRun then ([], some (.failedRun ⟨words, covered, ignored⟩))
      else (if o.summarizes then [.log .info words] else [], none) := by
  unfold verdict
  rw [o.summary?_after records something, Tally.summaryOf_of_canSay _ _ _ sayable]
  rfl

/-- Findings that cannot be put into words end the run in any case. -/
theorem verdict_of_not_canSay (something : foundIn records ≠ [])
    (unsayable : ¬ o.CanSay (upTo o.limit (foundIn records))) :
    o.verdict (.after o.limit records) = ([], some (.ofExcess .spelling)) := by
  unfold verdict
  rw [o.summary?_after records something, Tally.summaryOf_of_not_canSay _ _ _ unsayable]
  rfl

end ReportOptions

namespace Judge

/-- A run ends well, or with the verdict, if the final message can be put into words. -/
theorem error_process_of_canSay [Wording] {σ : Type} (j : Judge σ) (s : σ) (records : List Record)
    (decodes : ∀ r ∈ records, r.Decodes) (returns : j.Returns j.start s records)
    (sayable : j.options.CanSay (upTo j.options.limit (foundIn records))) :
    (j.process j.start s records).error = none ∨
      ∃ verdict, (j.process j.start s records).error = some (.failedRun verdict) := by
  rw [j.error_process_start s records decodes returns]
  by_cases nothing : foundIn records = []
  · rw [j.options.verdict_of_none_found records nothing]
    exact .inl rfl
  · rw [j.options.verdict_of_canSay records nothing sayable]
    split
    · exact .inr ⟨_, rfl⟩
    · exact .inl rfl

/-- Every record is handed on as it is, in order, before the verdict. If nothing was found, there
is none. Else the findings within the limit, which are those that the reporter got, and the number
of the others are told by the error that fails the run, or by one line on the log if asked for;
but if the findings within the limit cannot be put into words, the run ends with that error. -/
theorem judges_what_was_reported [Wording] {σ : Type} (j : Judge σ) (s : σ)
    (records : List Record) (decodes : ∀ r ∈ records, r.Decodes)
    (returns : j.Returns j.start s records) :
    let run := j.process j.start s records
    let limit := j.options.limit
    let all := foundIn records
    let covered := if limit ≤ 0 then all else all.take (min limit.toNat all.length)
    let ignored := all.length - covered.length
    let words := verdictWords j.options.summarizes covered ignored
    emitted run.events = records ∧
      (turns run.events).length = records.length + 1 ∧
      (∃ verdict, (turns run.events)[records.length]? = some verdict ∧
        (all = [] → verdict = [] ∧ run.error = none) ∧
        (all ≠ [] → j.options.CanSay covered → j.options.failsRun = true →
          verdict = [] ∧ run.error = some (.failedRun ⟨words, covered, ignored⟩)) ∧
        (all ≠ [] → j.options.CanSay covered → j.options.failsRun = false →
          verdict = (if j.options.summarizes then [.log .info words] else []) ∧
            run.error = none) ∧
        (all ≠ [] → ¬ j.options.CanSay covered →
          verdict = [] ∧ run.error = some (.ofExcess .spelling))) ∧
      covered.length + ignored = all.length ∧
      ∀ write, j.reporter = some write →
        (reported run.events).flatMap Batch.findings = covered := by
  intro run limit all covered ignored words
  have cut : upTo j.options.limit (foundIn records) = covered := by
    unfold covered upTo
    rw [← List.take_eq_take_min]
  have ending : run.error = (j.options.verdict (.after limit records)).2 :=
    j.error_process_start s records decodes returns
  refine ⟨j.emitted_process_start s records decodes returns, ?_,
    ⟨_, j.verdict_process_start s records decodes returns, ?_, ?_, ?_, ?_⟩, ?_, ?_⟩
  · simp [run, j.turns_process_start s records decodes returns]
  · intro nothing
    rw [ending, j.options.verdict_of_none_found records nothing]
    exact ⟨rfl, rfl⟩
  · intro something sayable fails
    rw [← cut] at sayable
    rw [ending, j.options.verdict_of_canSay records something sayable, if_pos fails, cut]
    exact ⟨rfl, rfl⟩
  · intro something sayable fails
    rw [← cut] at sayable
    rw [ending, j.options.verdict_of_canSay records something sayable, if_neg (by simp [fails]),
      cut]
    exact ⟨rfl, rfl⟩
  · intro something unsayable
    rw [← cut] at unsayable
    rw [ending, j.options.verdict_of_not_canSay records something unsayable]
    exact ⟨rfl, rfl⟩
  · have shorter : covered.length ≤ all.length := by
      unfold covered
      split
      · exact Nat.le_refl _
      · exact List.length_take_le' _ _
    omega
  · intro write chosen
    rw [← cut]
    exact j.reported_process_start s records decodes returns write chosen

section Sample

attribute [local instance] Wording.leftOut

/-- With a limit of three the message covers three of four findings. -/
theorem judges_what_was_reported_limited :
    let j : Judge Unit := ⟨none, ⟨true, 3, false⟩⟩
    let covered := Record.sampleFindings ++ Record.sampleFindings.take 1
    (j.process j.start () [.sample, .sample]).error =
        some (.failedRun ⟨verdictWords false covered 1, covered, 1⟩) ∧
      verdictWords false covered 1 = "Failed to lint: a.ts[1, 2]: early, "
        ++ "a.ts[5, 1]: late, a.ts[1, 2]: early. (1 other errors not shown.)" := by
  intro j covered
  have decodes : ∀ r ∈ [Record.sample, Record.sample], r.Decodes := by
    simp [Record.sample_decodes]
  have found : foundIn [.sample, .sample] = Record.sampleFindings ++ Record.sampleFindings := by
    simp [foundIn]
  obtain ⟨-, -, ⟨_, -, -, fails, -, -⟩, -, -⟩ :=
    judges_what_was_reported j () [.sample, .sample] decodes (j.returns_of_none _ _ rfl _)
  rw [found] at fails
  refine ⟨(fails (by decide) (.inr (by decide +kernel)) rfl).2, by decide +kernel⟩

/-- What a linter prints about a finding in the last line that can be read. -/
def farOffChars : List Char :=
  "[\x7b\"name\":\"a.ts\",\"failure\":\"m\",".toList
    ++ "\"startPosition\":\x7b\"line\":".toList ++ List.replicate Excess.digitLimit '9'
    ++ ",\"character\":0\x7d,".toList ++ "\"endPosition\":\x7b\"line\":0,".toList
    ++ "\"character\":0\x7d,\"ruleName\":\"r\"\x7d]".toList

/-- A record with that finding. -/
def farOff : Record :=
  ⟨⟨.root, ["a.ts"]⟩, "a.ts", .absent, some ⟨String.ofList farOffChars, "json"⟩⟩

theorem farOffChars_decode :
    (Payload.decodeText (String.ofList farOffChars)).toOption.map (List.map Finding.isFarOff) =
      some [true] := by
  rw [Payload.decodeText_ofList]
  decide +kernel

/-- A finding that can be read need not have a line that can be written. -/
theorem farOff_decoded : ∃ f, farOff.decoded = .ok [f] ∧ f.isFarOff = true := by
  obtain ⟨fs, decoded, far⟩ := Option.map_eq_some_iff.mp farOffChars_decode
  cases fs with
  | nil => simp at far
  | cons f rest =>
    obtain ⟨first, none⟩ := List.cons.inj far
    obtain rfl := List.map_eq_nil_iff.mp none
    exact ⟨f, Record.decoded_of_decodeText rfl decoded, first⟩

/-- A run that is to fail on its findings, and has one, may end with another error. -/
theorem unsayable_ends_run :
    let j : Judge Unit := ⟨none, ⟨true, 0, false⟩⟩
    farOff.Decodes ∧ foundIn [farOff] ≠ [] ∧ j.options.failsRun = true ∧
      (j.process j.start () [farOff]).error = some (.ofExcess .spelling) ∧
      ∀ s, (j.process j.start () [farOff]).error ≠ some (.failedRun s) := by
  intro j
  obtain ⟨f, decoded, far⟩ := farOff_decoded
  have found : foundIn [farOff] = [f] := by
    rw [foundIn_singleton, Record.found_of_decoded decoded]
  have something : foundIn [farOff] ≠ [] := by simp [found]
  have unsayable : ¬ j.options.CanSay (upTo j.options.limit (foundIn [farOff])) := by
    rw [found]
    rintro (counts | near)
    · cases counts
    · rw [near f (by simp [upTo, j])] at far
      cases far
  have ending : (j.process j.start () [farOff]).error = some (.ofExcess .spelling) := by
    rw [j.error_process_start () [farOff] (by simpa using ⟨_, decoded⟩)
      (j.returns_of_none _ _ rfl _), j.options.verdict_of_not_canSay [farOff] something unsayable]
  refine ⟨⟨_, decoded⟩, something, rfl, ending, ?_⟩
  intro s failed
  rw [ending] at failed
  cases failed

end Sample

end Judge

end LintRun
