import LintRun.Proofs.Command.Answers
import LintRun.Proofs.Flow.Apart
import LintRun.Proofs.Flow.Interruption
import LintRun.Proofs.Linting.TimeLimit

/-!
# Answers of a command in a run

In a run that asks a command about records that were never linted, the payload of a record that is
handed on decodes: output that is no list of findings stops the run in the linting stage, at its
own file (`command_answers_decode`). The reporting stage decodes the payload once more, and that
never fails. So an error of an engine comes from the reporting stage only if the reporter itself
ends with one (`raising_reporter_ends_run`).
-/
namespace LintRun

open LintRun.Command (Finished Usable templateOf)
open LintRun.Command.Machine (judge printed)

/-- Characters without blanks at their two ends are kept when a text is trimmed. -/
theorem Text.trim_ofList {cs : List Char} (bare : trimChars isBlank cs = cs) :
    trim (String.ofList cs) = String.ofList cs := by
  rw [trim, String.toList_ofList, bare]

section Within

variable {α : Type} {limit : Option Float} {path : Path} {phase : String} {c : Call α}

/-- A call that ends well under a limit ends well without it. -/
theorem Call.ending_of_within {a : α} (ended : c.within limit path phase = .ok a) :
    c.ending = .ok a := by
  cases limit with
  | none => exact ended
  | some t =>
    simp only [within] at ended
    split at ended
    · cases ended
    · split at ended
      · cases ended
      · exact ended

theorem Call.within_of_inTime (inTime : ∀ t, limit = some t → ¬ t < c.seconds)
    (quiet : ∀ words, c.ending ≠ .error (.outside .timeout words)) :
    c.within limit path phase = c.ending := by
  cases limit with
  | none => exact c.within_none path phase
  | some t => exact c.within_some path phase t (inTime t rfl) quiet

end Within

namespace Linter

variable {σ : Type} {l : Linter σ} {m : Command.Machine σ} {depth : Nat}
  {command : Option (List String)} {r linted : Record} {s : σ} {f : Finished}

/-- A record that comes to a stage in a state, and whose command comes to its end in time. -/
inductive Finishes (l : Linter σ) (m : Command.Machine σ) (depth : Nat)
    (command : Option (List String)) (r : Record) (s : σ) (f : Finished) : Prop where
  | inTime (configuration : Table) (text : String) (next last : σ) (seconds : Float)
    (resolved : l.resolve r s = (.ok configuration, next)) (decoded : r.text = .ok text)
    (completes : m.Completes depth (templateOf command) (l.requestFor r configuration text) next f
      seconds last)
    (inTime : ∀ t, l.limit = some t → ¬ t < seconds) : Finishes l m depth command r s f

section Asked

variable {configuration : Table} {text : String} {next : σ}
  (resolved : l.resolve r s = (.ok configuration, next)) (decoded : r.text = .ok text)

include resolved decoded

/-- A record whose configuration and text are known is asked about. -/
theorem handle_eq_ask : l.handle r s = l.ask r [.resolve r.path] next configuration text := by
  have buffered : r.isNull = false ∧ r.isStream = false := by
    unfold Record.text at decoded
    split at decoded
    · next held => simp [Record.isNull, Record.isStream, held]
    · cases decoded
  exact l.handle_of_resolved r s buffered.1 buffered.2 resolved decoded

/-- The fate of a record that is asked about in time is what the engine says, unless that is a
timeout of its own. -/
theorem fate_of_asked {c : Call Payload} {last : σ}
    (asked : l.engine.run (l.requestFor r configuration text) next = (c, last))
    (inTime : ∀ t, l.limit = some t → ¬ t < c.seconds)
    (quiet : ∀ words, c.ending ≠ .error (.outside .timeout words)) :
    (∀ p, c.ending = .ok p → (l.handle r s).fate = .emitted { r with lint := some p }) ∧
      ∀ e, c.ending = .error e → (l.handle r s).fate = .failed e := by
  have ended : c.within l.limit r.path "Linting" = c.ending := Call.within_of_inTime inTime quiet
  simp only [requestFor] at asked
  simp only [handle_eq_ask resolved decoded, ask, asked, ended]
  constructor
  · intro p answered
    rw [answered]
  · intro e failed
    rw [failed]
    exact fail_fate _ _ _ _

end Asked

section Asks

variable (asks : l.engine = m.engine depth command)

include asks

/-- A record whose command comes to its end in time gets what was printed, if that is usable; else
the stage fails on it. -/
theorem fate_of_finishes (finishes : l.Finishes m depth command r s f) :
    (Usable (printed f) →
        (l.handle r s).fate = .emitted { r with lint := some (.ofText (printed f)) }) ∧
      (¬ Usable (printed f) → ∃ details, (l.handle r s).fate =
        .failed (.engine (.noPayload f.status r.relative
          (Text.trim (Text.Utf8.decodeDropping f.complaint)) details))) := by
  obtain ⟨configuration, text, next, last, seconds, resolved, decoded, completes, inTime⟩ := finishes
  have asked := Command.Machine.run_of_completes completes
  have relative : (l.requestFor r configuration text).relative = r.relative := rfl
  rw [← asks, relative] at asked
  constructor
  · intro usable
    rw [Command.Machine.judge_of_usable r.relative f usable] at asked
    exact (fate_of_asked resolved decoded asked inTime nofun).1 _ rfl
  · intro unusable
    obtain ⟨details, refused⟩ := Command.Machine.judge_of_not_usable r.relative f unusable
    rw [refused] at asked
    exact ⟨details, (fate_of_asked resolved decoded asked inTime nofun).2 _ rfl⟩

/-- A record decodes when it is handed on, unless it holds nothing and came with a payload. -/
theorem decodes_of_emitted (bare : r.isNull → r.lint = none)
    (handed : (l.handle r s).fate = .emitted linted) : linted.Decodes := by
  have visits := l.handle_visits r s
  generalize l.handle r s = v at visits handed
  cases visits with
  | skipped null =>
    cases handed
    exact ⟨[], by rw [Record.decoded, bare null]⟩
  | linted _ _ configuration next _ text _ c last asked p answered =>
    cases handed
    rw [asks] at asked
    have given : ((m.engine depth command).run (l.requestFor r configuration text) next).1.ending =
        .ok p := by
      rw [asked]
      exact Call.ending_of_within answered
    obtain ⟨fs, decoded⟩ := Command.Machine.exists_decode_of_run given
    exact ⟨fs, by simp only [Record.decoded, decoded]⟩
  | streaming => cases handed
  | dropped => cases handed
  | raised | unresolved | unbuffered | refused => rw [fail_fate] at handed; cases handed

end Asks

end Linter

/-- The verdict is no error of an engine. -/
theorem ReportOptions.verdict_ne_engine (o : ReportOptions) (t : Tally) (p : EngineProblem) :
    (o.verdict t).2 ≠ some (.engine p) := by
  intro failed
  unfold verdict at failed
  split at failed
  · cases failed
  · cases failed
  · split at failed <;> cases failed

/-- A reporter that is no engine: it ends with no error of one. -/
def Judge.ReportsOnly {σ : Type} (j : Judge σ) : Prop :=
  ∀ write, j.reporter = some write → ∀ b s p, (write b s).written.error ≠ some (.engine p)

theorem Judge.ReportsOnly.report_ne {σ : Type} {j : Judge σ} (only : j.ReportsOnly) (b : Batch)
    (s : σ) (p : EngineProblem) : (j.report b s).2.written.error ≠ some (.engine p) := by
  unfold Judge.report
  split
  · nofun
  · next write chosen => exact only write chosen b s p

namespace Flow

variable [Wording] {σ : Type} {f : Flow σ} {m : Command.Machine σ} {depth : Nat}
  {command : Option (List String)} (asks : f.linter.engine = m.engine depth command)

include asks

/-- Only the linting stage is interrupted by a record, unless it holds nothing and came with a
payload. -/
theorem Interrupts.fate_eq {s : σ} {r left : Record} {e : Error} (bare : r.isNull → r.lint = none)
    (interrupts : f.Interrupts s r e left) : (f.linter.handle r s).fate = .failed e := by
  cases interrupts with
  | linting failed => exact failed
  | decoding linted handed undecodable =>
    rw [(f.linter.decodes_of_emitted asks bare handed).findings_eq] at undecodable
    cases undecodable

/-- A run ends with an error of an engine only if the linting stage fails on one of its records. -/
theorem run_error_engine (only : f.judge.ReportsOnly) {s : σ} {t : Tally} {records : List Record}
    {p : EngineProblem} (bare : ∀ r ∈ records, r.isNull → r.lint = none)
    (failed : (f.run s t records).error = some (.engine p)) :
    ∃ before r later, records = before ++ r :: later ∧ (f.pass s t before).error = none ∧
      (f.linter.handle r (f.pass s t before).state).fate = .failed (.engine p) := by
  rcases f.run_error_cases s t records _ failed with
    ⟨before, r, later, rfl, reached, ⟨left, interrupts⟩ | breaks⟩ | ⟨-, verdict⟩
  · exact ⟨before, r, later, rfl, reached, interrupts.fate_eq asks (bare r (by simp))⟩
  · cases breaks with
    | handler last ends => exact ⟨before, r, later, rfl, reached, ends.fate_eq⟩
    | reporter linted b handed about ended => exact absurd ended (only.report_ne b _ p)
  · exact absurd verdict (f.judge.options.verdict_ne_engine _ p)

omit asks in
/-- A run whose linting stage fails on a record that arrives ends there, and hands on no more. -/
theorem runIn_of_failed {ι : Type} [DecidableEq ι] (f : Flow σ) (s : σ) (t : Tally)
    (store : Store ι) (keys : List ι) {before later : List Record} {r : Record} {e : Error}
    (parts : f.arrivals s t store keys = before ++ r :: later)
    (reached : (f.pass s t before).error = none)
    (failed : (f.linter.handle r (f.pass s t before).state).fate = .failed e) :
    let front := f.pass s t before
    let run := f.runIn s t store keys
    run.error = some e ∧
      run.events = front.events ++ (f.linter.handle r front.state).events ∧
      emitted run.events = emitted front.events := by
  intro front run
  obtain ⟨events, -, error, -⟩ := f.runIn_arrivals s t store keys
  have whole := f.run_of_failed s t reached failed later
  have silent : emitted (f.linter.handle r front.state).events = [] :=
    f.linter.emitted_visit ⟨r, front.state⟩
  rw [← parts] at whole
  have done : run.events = front.events ++ (f.linter.handle r front.state).events := by
    simp only [run, front, events, whole]
  refine ⟨?_, done, ?_⟩
  · simp only [run, error, whole]
  · rw [done, emitted_append, silent, List.append_nil]

end Flow

/-- The text that a program is taken to have printed is the answer of its command exactly if it has
characters and lists findings; else there is an error of the engine, whatever the status. So every
answer decodes. In a run over records that were not linted before, none of which has to be another
one than those before it, an error of an engine comes from the linting stage, unless the reporter
ends with one of its own: a record whose output is usable is handed on to the reporting stage with
just that text, and one whose output is not stops the run before it is handed on. -/
theorem command_answers_decode [Wording] {σ : Type} (m : Command.Machine σ) (depth : Nat)
    (command : Option (List String)) :
    (∀ q s finished seconds last,
      m.Completes depth (templateOf command) q s finished seconds last →
        let text := Text.trim (Text.Utf8.decodeDropping finished.output)
        let taken := if text = "" ∧ finished.status = 0 then "[]" else text
        let complaint := Text.trim (Text.Utf8.decodeDropping finished.complaint)
        let ending := (m.lint depth (templateOf command) q s).1.ending
        (ending = .ok (.payload (.ofText taken)) ↔
            taken ≠ "" ∧ ∃ fs, Payload.decodeText taken = .ok fs) ∧
          (¬ (taken ≠ "" ∧ ∃ fs, Payload.decodeText taken = .ok fs) →
            ∃ details, ending =
              .error (.engine (.noPayload finished.status q.relative complaint details)))) ∧
      (∀ q s a, (m.lint depth (templateOf command) q s).1.ending = .ok a →
        ∃ p fs, a = .payload p ∧ p.decode = .ok fs) ∧
      ∀ f : Flow σ, f.linter.engine = m.engine depth command →
        ∀ (ι : Type) [DecidableEq ι] (s : σ) (store : Store ι) (keys : List ι),
          (∀ k ∈ keys, (store k).lint = none) →
            let run := f.runIn s f.judge.start store keys
            let records := f.arrivals s f.judge.start store keys
            ((∀ write, f.judge.reporter = some write →
                ∀ b s p, (write b s).written.error ≠ some (.engine p)) →
              ∀ p, run.error = some (.engine p) →
                ∃ before r later, records = before ++ r :: later ∧
                  let front := f.pass s f.judge.start before
                  let now := f.linter.handle r front.state
                  front.error = none ∧ now.fate = .failed (.engine p) ∧
                    run.events = front.events ++ now.events ∧
                    emitted run.events = emitted front.events) ∧
            ∀ before r later, records = before ++ r :: later →
              let front := f.pass s f.judge.start before
              let now := f.linter.handle r front.state
              front.error = none → ∀ finished,
                f.linter.Finishes m depth command r front.state finished →
                  (Usable (printed finished) →
                    now.fate = .emitted { r with lint := some (.ofText (printed finished)) }) ∧
                  (¬ Usable (printed finished) → ∃ details,
                    run.error = some (.engine (.noPayload finished.status r.relative
                      (Text.trim (Text.Utf8.decodeDropping finished.complaint)) details)) ∧
                    run.events = front.events ++ now.events ∧
                    emitted run.events = emitted front.events) := by
  refine ⟨?_, ?_, ?_⟩
  · intro q s finished seconds last completes text taken complaint ending
    have said : taken = printed finished := (Command.Machine.printed_eq finished).symm
    have answered : ending = (judge q.relative finished).map .payload := by
      simp only [ending, Command.Machine.lint_of_completes completes]
    rw [said, answered]
    change (_ ↔ Usable (printed finished)) ∧ (¬ Usable (printed finished) → _)
    by_cases usable : Usable (printed finished)
    · rw [Command.Machine.judge_of_usable q.relative finished usable]
      simp [usable, Except.map]
    · obtain ⟨details, refused⟩ :=
        Command.Machine.judge_of_not_usable q.relative finished usable
      rw [refused]
      simp [usable, Except.map, complaint]
  · intro q s a answered
    exact Command.Machine.exists_decode_of_lint answered
  · intro f asks ι _ s store keys unlinted run records
    constructor
    · intro only p failed
      obtain ⟨-, -, error, -⟩ := f.runIn_arrivals s f.judge.start store keys
      have bare := f.lint_of_mem_arrivals s f.judge.start store keys
        fun k member _ => unlinted k member
      obtain ⟨before, r, later, parts, reached, fate⟩ :=
        Flow.run_error_engine asks only bare (error.symm.trans failed)
      obtain ⟨-, stops⟩ := f.runIn_of_failed s _ store keys parts reached fate
      exact ⟨before, r, later, parts, reached, fate, stops⟩
    · intro before r later parts front now reached finished finishes
      obtain ⟨taken, refused⟩ := Linter.fate_of_finishes asks finishes
      refine ⟨taken, fun unusable => ?_⟩
      obtain ⟨details, fate⟩ := refused unusable
      exact ⟨details, f.runIn_of_failed s _ store keys parts reached fate⟩

section Sample

open LintRun.Command.Machine (printing requestOf completes_printing)

attribute [local instance] Wording.leftOut

/-- A run that asks a program that prints the same whatever it is asked. -/
def printingFlow (output : ByteArray) (reporter : Option (Reporter Unit)) : Flow Unit :=
  ⟨⟨fun _ s => (⟨.ok [], 0⟩, s), (printing output).engine Depth.writtenInCheck (some ["/p"]), none,
    none, none⟩, ⟨reporter, true, 0, false⟩⟩

def Record.fresh : Record :=
  ⟨⟨.root, ["a.ts"]⟩, "a.ts", .bytes (Text.Utf8.encode "1"), none⟩

theorem finishes_printing (output : ByteArray) (reporter : Option (Reporter Unit)) :
    (printingFlow output reporter).linter.Finishes (printing output) Depth.writtenInCheck
      (some ["/p"]) .fresh () ⟨0, output, ByteArray.empty⟩ := by
  have decoded : Record.fresh.text = .ok "1" := by
    have text : Text.Utf8.decodeReplacing (Text.Utf8.encode "1") = "1" := by decide +kernel
    rw [Record.text, Record.fresh]
    simp only [text]
  have unlimited : (printingFlow output reporter).linter.limit = none := rfl
  refine .inTime [] "1" () () 0 rfl decoded (completes_printing output) ?_
  intro t limited
  rw [unlimited] at limited
  cases limited

theorem oops_not_usable : ¬ Usable (printed ⟨0, Text.Utf8.encode "oops", ByteArray.empty⟩) := by
  have said : printed ⟨0, Text.Utf8.encode "oops", ByteArray.empty⟩ =
      String.ofList ['o', 'o', 'p', 's'] := by decide +kernel
  have none : (Payload.decodeText (String.ofList ['o', 'o', 'p', 's'])).toOption = none := by
    rw [Payload.decodeText_ofList]
    decide
  rw [said]
  rintro ⟨-, fs, decoded⟩
  rw [decoded] at none
  cases none

/-- Nothing printed, with success, is an answer; a word that is no list stops a run, here over one
record that comes twice. -/
theorem command_answers_decode_printing :
    ((printing ByteArray.empty).lint Depth.writtenInCheck ["/p"] (requestOf "a.ts") ()).1.ending =
        .ok (.payload (.ofText "[]")) ∧
      let f := printingFlow (Text.Utf8.encode "oops") none
      let run := f.runIn () f.judge.start (fun _ : Unit => .fresh) [(), ()]
      (∃ complaint details,
          run.error = some (.engine (.noPayload 0 "a.ts" complaint details))) ∧
        emitted run.events = [] := by
  constructor
  · have silent : Text.trim (Text.Utf8.decodeDropping ByteArray.empty) = "" := by decide +kernel
    obtain ⟨judged, -, -⟩ :=
      command_answers_decode (printing ByteArray.empty) Depth.writtenInCheck (some ["/p"])
    have answer := (judged _ _ _ _ _ (completes_printing ByteArray.empty)).1
    simp only [silent, and_self, if_true] at answer
    refine answer.mpr ⟨by decide, [], ?_⟩
    rw [show "[]" = String.ofList ['[', ']'] by decide, Payload.decodeText_ofList]
    rfl
  · intro f
    dsimp only
    obtain ⟨-, -, runs⟩ :=
      command_answers_decode (printing (Text.Utf8.encode "oops")) Depth.writtenInCheck (some ["/p"])
    obtain ⟨later, arrives⟩ :=
      f.exists_arrivals_cons () f.judge.start (fun _ : Unit => .fresh) [()] ()
    have stops := (runs f rfl Unit () (fun _ => .fresh) [(), ()] (fun _ _ => rfl)).2 [] .fresh later
      arrives rfl _ (finishes_printing _ none)
    obtain ⟨details, failed, -, silent⟩ := stops.2 oops_not_usable
    rw [failed]
    exact ⟨⟨_, details, rfl⟩, silent⟩

theorem sampleText_usable :
    printed ⟨0, Text.Utf8.encode Record.sampleText, ByteArray.empty⟩ = Record.sampleText ∧
      Usable Record.sampleText := by
  have trimmed : Text.trim Record.sampleText = Record.sampleText := by
    rw [Record.sampleText, Text.trim_ofList (by decide +kernel)]
  have some : Record.sampleText ≠ "" := by
    intro empty
    have decoded := Record.sampleText_decode
    rw [empty] at decoded
    exact List.cons_ne_nil _ _ (Option.some.inj decoded).symm
  exact ⟨by simp [printed, Text.Utf8.decodeDropping_encode, trimmed, some], some, _,
    Payload.decodeText_eq_ok Record.sampleText_decode⟩

/-- A reporter that ends with an error of an engine: the linting stage has handed the record on with
a payload that decodes, and the run ends with that error all the same. -/
theorem raising_reporter_ends_run :
    let raised : Error := .engine (.stated "no space")
    let raising : Reporter Unit := fun b s => ⟨⟨[], some raised⟩, b.findings, s⟩
    let f := printingFlow (Text.Utf8.encode Record.sampleText) (some raising)
    let run := f.runIn () f.judge.start (fun _ : Unit => .fresh) [()]
    Record.fresh.lint = none ∧
      (∃ linted, (f.linter.handle .fresh ()).fate = .emitted linted ∧ linted.Decodes) ∧
      run.error = some raised := by
  intro raised raising f
  dsimp only
  let linted : Record := { Record.fresh with lint := some (.ofText Record.sampleText) }
  have handed : (f.linter.handle .fresh ()).fate = .emitted linted := by
    have finishes := finishes_printing (Text.Utf8.encode Record.sampleText) (some raising)
    have asks : f.linter.engine = (printing (Text.Utf8.encode Record.sampleText)).engine
        Depth.writtenInCheck (some ["/p"]) := rfl
    have taken := (Linter.fate_of_finishes asks finishes).1
    rw [sampleText_usable.1] at taken
    exact taken sampleText_usable.2
  have decoded : linted.decoded = .ok Record.sampleFindings :=
    Record.decoded_of_decodeText rfl Record.sampleText_decode
  have due : f.judge.dueFindings [] linted ≠ [] := by
    rw [Judge.dueFindings_ne_nil_iff, Record.found_of_decoded decoded]
    exact ⟨List.cons_ne_nil _ _, by decide⟩
  have broken (s : Unit) : (f.judge.handle f.judge.start s linted).error = some raised := by
    rw [Judge.start, ← Tally.after_nil,
      f.judge.handle_of_error [] s linted ⟨_, decoded⟩ due rfl]
  obtain ⟨later, arrives⟩ :=
    f.exists_arrivals_cons () f.judge.start (fun _ : Unit => .fresh) [] ()
  obtain ⟨-, -, error, -⟩ := f.runIn_arrivals () f.judge.start (fun _ : Unit => .fresh) [()]
  refine ⟨rfl, ⟨linted, handed, _, decoded⟩, ?_⟩
  rw [error, arrives, f.run_of_ruled () f.judge.start .fresh linted handed later (broken _)]

end Sample

end LintRun
