import LintRun.Proofs.Judging.Notice
import LintRun.Proofs.Reporter

/-!
# Reporters look on

What a run makes known by itself are the records that it hands on, the notice, and the verdict. None
of it turns on the reporter: the view of a trace that leaves out what the reporter writes
(`announced`) is a function of the options and the records. The other way round, the reporter does
not learn from what it gets how the run will be judged: apart from the options that come with each
batch, a trace before the verdict is a function of the limit (`reporter_decides_nothing`). What a
reporter may fail on is handed to it only if a record holds it, so a built-in one returns unless it
cannot write some finding of the records. Only by the list that it leaves does a reporter touch the
counters (`emptied_list_is_noticed`).
-/
namespace LintRun

/-- A record that is handed on, or a line on the channel that the stage itself writes to. -/
def Event.isAnnouncement : Event → Bool
  | .emit _ | .log .info _ => true
  | _ => false

/-- What a trace makes known apart from what the reporter writes. -/
def announced (trace : List Event) : List Event := trace.filter Event.isAnnouncement

def Batch.withoutOptions (b : Batch) : Batch := { b with options := none }

def Event.withoutOptions : Event → Event
  | .report b => .report b.withoutOptions
  | e => e

section Views

variable (first second trace : List Event)

@[simp] theorem announced_append :
    announced (first ++ second) = announced first ++ announced second :=
  List.filter_append _ _

@[simp] theorem announced_emit (r : Record) :
    announced (.emit r :: trace) = .emit r :: announced trace := rfl

theorem reported_withoutOptions :
    reported (trace.map Event.withoutOptions) = (reported trace).map Batch.withoutOptions := by
  simp only [reported, List.filterMap_map, List.map_filterMap]
  congr 1
  funext e
  cases e <;> rfl

theorem logged_withoutOptions : logged (trace.map Event.withoutOptions) = logged trace := by
  simp only [logged, List.filterMap_map]
  congr 1
  funext e
  cases e <;> rfl

theorem notices_withoutOptions (limit : Int) :
    notices limit (trace.map Event.withoutOptions) = notices limit trace := by
  simp only [notices, List.countP_map]
  congr 1
  funext e
  cases e <;> rfl

end Views

/-- A choice of a reporter that only looks on: none, a built-in one, or one from outside that leaves
the log alone. -/
inductive OnlyLooks {σ : Type} : Option (Reporter σ) → Prop where
  | none : OnlyLooks none
  | builtIn (name : ReporterName) : OnlyLooks (some name.reporter)
  | silent (write : Reporter σ) (leaves : ∀ b s, (write b s).written.lines = []) :
    OnlyLooks (some write)

theorem Written.channel_of_mem_one (c : Channel) (line : Except Error String) :
    ∀ l ∈ (one c line).lines, l.channel = c := by
  cases line with
  | ok words => simp [one]
  | error e => simp [one]

theorem Written.channel_of_mem_each (c : Channel) (line : Finding → Except Excess String)
    (fs : List Finding) : ∀ l ∈ (each c line fs).lines, l.channel = c := by
  induction fs with
  | nil => simp [each]
  | cons f rest ih =>
    intro l member
    unfold each append at member
    split at member
    · exact channel_of_mem_one c _ l member
    · exact (List.mem_append.mp member).elim (channel_of_mem_one c _ l) (ih l)

/-- A built-in reporter leaves the channel of the stage alone. -/
theorem ReporterName.channel_ne_info (name : ReporterName) (b : Batch) :
    ∀ l ∈ (name.write b).lines, l.channel ≠ .info := by
  intro l member
  cases name with
  | json => simp [Written.channel_of_mem_one _ _ l member]
  | _ => simp [Written.channel_of_mem_each _ _ _ l member]

section OnlyLooks

variable {σ : Type} {write : Reporter σ} (looks : OnlyLooks (some write)) (b : Batch) (s : σ)

include looks

theorem OnlyLooks.channel_ne_info : ∀ l ∈ (write b s).written.lines, l.channel ≠ .info := by
  cases looks with
  | builtIn name => exact name.channel_ne_info b
  | silent _ leaves => simp [leaves]

/-- A reporter that only looks on writes the same whatever the options and its state are. -/
theorem OnlyLooks.lines_withoutOptions (other : σ) :
    (write b.withoutOptions other).written.lines = (write b s).written.lines := by
  cases looks with
  | builtIn name => cases name <;> rfl
  | silent _ leaves => simp [leaves]

end OnlyLooks

namespace Judge

variable {σ τ : Type}

section Announced

variable {j : Judge σ} (looks : OnlyLooks j.reporter)

include looks

theorem announced_report (b : Batch) (s : σ) : announced (j.report b s).1 = [] := by
  apply List.filter_eq_nil_iff.mpr
  intro e member
  unfold report at member
  split at member
  · cases member
  · next write chosen =>
    rw [chosen] at looks
    rcases List.mem_cons.mp member with rfl | line
    · simp [Event.isAnnouncement]
    · obtain ⟨l, written, rfl⟩ := List.mem_map.mp line
      have apart := looks.channel_ne_info b s l written
      cases channel : l.channel with
      | info => exact absurd channel apart
      | _ => simp [Event.isAnnouncement]

/-- A turn makes known at most that the limit is reached. -/
theorem announced_turn (before : List Record) (s : σ) (r : Record) :
    announced (j.turn before s r) =
      if j.Crosses before r then [notice j.options.limit] else [] := by
  by_cases crosses : j.Crosses before r
  · rw [j.turn_of_crosses before s r crosses, announced_append, announced_report looks,
      if_pos crosses]
    rfl
  · rw [if_neg crosses]
    unfold turn
    split
    · rfl
    · simp only [List.append_nil, announced_report looks]

end Announced

section Reporters

variable (options : ReportOptions) {first : Option (Reporter σ)} {second : Option (Reporter τ)}

/-- What a passage makes known is the same with either reporter. -/
theorem announced_passage (looksFirst : OnlyLooks first) (looksSecond : OnlyLooks second)
    (records before : List Record) (s : σ) (s' : τ) :
    announced (passage ⟨first, options⟩ before s records) =
      announced (passage ⟨second, options⟩ before s' records) := by
  induction records generalizing before s s' with
  | nil => rfl
  | cons r rest ih =>
    have same : announced (turn ⟨first, options⟩ before s r) =
        announced (turn ⟨second, options⟩ before s' r) :=
      (announced_turn (j := ⟨first, options⟩) looksFirst before s r).trans
        (announced_turn (j := ⟨second, options⟩) looksSecond before s' r).symm
    rw [passage, passage, announced_append, announced_append, same, announced_emit, announced_emit,
      ih]

end Reporters

section Options

variable {reporter : Option (Reporter σ)} (looks : OnlyLooks reporter)
  {first second : ReportOptions} (same : first.limit = second.limit)

include looks

/-- Apart from the options, a call of the reporter on the same findings of the same record is the
same. -/
theorem report_withoutOptions (b b' : Batch) (s s' : σ)
    (alike : b.withoutOptions = b'.withoutOptions) :
    (report ⟨reporter, first⟩ b s).1.map Event.withoutOptions =
      (report ⟨reporter, second⟩ b' s').1.map Event.withoutOptions := by
  cases reporter with
  | none => rfl
  | some write =>
    have lines : (write b s).written.lines = (write b' s').written.lines := by
      rw [← looks.lines_withoutOptions b s s, alike, looks.lines_withoutOptions b' s' s]
    simp [report, Event.withoutOptions, alike, lines]

include same

theorem turn_withoutOptions (before : List Record) (s s' : σ) (r : Record) :
    (turn ⟨reporter, first⟩ before s r).map Event.withoutOptions =
      (turn ⟨reporter, second⟩ before s' r).map Event.withoutOptions := by
  have due : dueFindings ⟨reporter, first⟩ before r = dueFindings ⟨reporter, second⟩ before r := by
    simp only [dueFindings, same]
  have crosses : Crosses ⟨reporter, first⟩ before r ↔ Crosses ⟨reporter, second⟩ before r := by
    simp only [Crosses, same]
  have batch : (dueBatch ⟨reporter, first⟩ before r).withoutOptions =
      (dueBatch ⟨reporter, second⟩ before r).withoutOptions := by
    simp only [dueBatch, Batch.withoutOptions, due]
  have calls : (report ⟨reporter, first⟩ _ s).1.map _ = (report ⟨reporter, second⟩ _ s').1.map _ :=
    report_withoutOptions looks _ _ s s' batch
  unfold turn
  simp only [due, crosses, same]
  split
  · rfl
  · rw [List.map_append, List.map_append, calls]

/-- Before the verdict the traces of runs under one limit are the same apart from the options. -/
theorem passage_withoutOptions (records before : List Record) (s s' : σ) :
    (passage ⟨reporter, first⟩ before s records).map Event.withoutOptions =
      (passage ⟨reporter, second⟩ before s' records).map Event.withoutOptions := by
  induction records generalizing before s s' with
  | nil => rfl
  | cons r rest ih =>
    simp only [passage, List.map_append, List.map_cons, turn_withoutOptions looks same _ s s' r]
    rw [ih]

end Options

/-- The verdict writes on the channel of the stage only. -/
theorem logged_verdict (o : ReportOptions) (t : Tally) :
    (logged (o.verdict t).1).filter (·.channel ≠ .info) = [] := by
  apply List.filter_eq_nil_iff.mpr
  intro l member
  obtain ⟨e, told, line⟩ := List.mem_filterMap.mp member
  obtain ⟨words, rfl⟩ := events_verdict o t e told
  cases line
  simp

section Runs

variable [Wording] {records : List Record} (decodes : ∀ r ∈ records, r.Decodes)

include decodes

/-- The outcome of a run is the same with either reporter, and so is what it makes known. -/
theorem outcome_of_either_reporter (options : ReportOptions) {first : Option (Reporter σ)}
    {second : Option (Reporter τ)} (s : σ) (s' : τ) (looksFirst : OnlyLooks first)
    (looksSecond : OnlyLooks second) :
    let j : Judge σ := ⟨first, options⟩
    let k : Judge τ := ⟨second, options⟩
    let one := j.process j.start s records
    let other := k.process k.start s' records
    j.Returns j.start s records → k.Returns k.start s' records →
      announced one.events = announced other.events ∧ one.tally = other.tally ∧
        one.error = other.error := by
  intro j k one other returnsFirst returnsSecond
  have wholeFirst := j.process_start s records decodes returnsFirst
  have wholeSecond := k.process_start s' records decodes returnsSecond
  refine ⟨?_, ?_, ?_⟩
  · simp only [one, other, wholeFirst, wholeSecond, announced_append]
    congr 1
    exact announced_passage options looksFirst looksSecond records [] s s'
  · simp only [one, other, wholeFirst, wholeSecond]
    rfl
  · simp only [one, other, wholeFirst, wholeSecond]
    rfl

/-- Before their verdicts, runs under one limit differ in nothing but the options that come with
each batch. The verdicts call no reporter, write on the channel of the stage only, and do not tell
that the limit is reached. -/
theorem front_of_either_options {reporter : Option (Reporter σ)} (looks : OnlyLooks reporter)
    {first second : ReportOptions} (s : σ) (same : first.limit = second.limit) :
    let j : Judge σ := ⟨reporter, first⟩
    let k : Judge σ := ⟨reporter, second⟩
    let one := j.process j.start s records
    let other := k.process k.start s records
    j.Returns j.start s records → k.Returns k.start s records →
      ∃ front verdict front' verdict',
        one.events = front ++ verdict ∧ other.events = front' ++ verdict' ∧
          front.map Event.withoutOptions = front'.map Event.withoutOptions ∧
          emitted front = records ∧ emitted front' = records ∧
          ∀ v ∈ [verdict, verdict'], reported v = [] ∧
            (logged v).filter (·.channel ≠ .info) = [] ∧ notices first.limit v = 0 := by
  intro j k one other returnsFirst returnsSecond
  refine ⟨_, _, _, _, j.events_process_start s records decodes returnsFirst,
    k.events_process_start s records decodes returnsSecond,
    passage_withoutOptions looks same records [] s s, j.emitted_passage records [] s,
    k.emitted_passage records [] s, ?_⟩
  intro v member
  simp only [List.mem_cons, List.not_mem_nil, or_false] at member
  rcases member with rfl | rfl
  · exact ⟨reported_verdict _ _, logged_verdict _ _, notices_verdict _ _ _⟩
  · exact ⟨reported_verdict _ _, logged_verdict _ _, notices_verdict _ _ _⟩

end Runs

section Handed

variable [Wording] (j : Judge σ) (t : Tally) (s : σ)

/-- The reporter gets findings of the record at hand only. -/
theorem subset_of_mem_reported_handle (r : Record) (b : Batch)
    (called : b ∈ reported (j.handle t s r).events) : b.findings ⊆ r.found := by
  unfold handle at called
  split at called
  · cases called
  · next fs decoded =>
    rw [Record.found_of_findings decoded]
    have only :
        b ∈ reported (j.report ⟨(t.record r fs).reportable fs, some r, some j.options⟩ s).1 := by
      split at called
      · cases called
      · unfold deliver at called
        dsimp only at called
        split at called
        · cases called
        · split at called
          · exact called
          · rwa [reported_append, reported_notice, List.append_nil] at called
    rw [reported_report] at only
    split at only
    · obtain rfl := List.mem_singleton.mp only
      dsimp only [Tally.reportable]
      split
      · exact List.Subset.refl _
      · exact List.take_subset _ _
    · cases only

theorem subset_of_mem_reported (records : List Record) (b : Batch)
    (called : b ∈ reported (j.process t s records).events) : b.findings ⊆ foundIn records := by
  induction records generalizing t s with
  | nil =>
    rw [process, finish, reported_verdict] at called
    cases called
  | cons r rest ih =>
    have whole : foundIn (r :: rest) = r.found ++ foundIn rest := rfl
    rw [whole]
    unfold process at called
    dsimp only at called
    have now (asked : b ∈ reported (j.handle t s r).events) :
        b.findings ⊆ r.found ++ foundIn rest :=
      List.Subset.trans (j.subset_of_mem_reported_handle t s r b asked)
        (List.subset_append_left _ _)
    split at called
    · exact now called
    · rw [reported_append, reported_emit] at called
      rcases List.mem_append.mp called with asked | later
      · exact now asked
      · exact List.Subset.trans (ih _ _ later) (List.subset_append_right _ _)

/-- A built-in reporter that can write all findings returns from all its calls. -/
theorem returns_of_canWrite (name : ReporterName) (chosen : j.reporter = some name.reporter)
    (records : List Record) (writable : name.canWrite (foundIn records) = true) :
    j.Returns t s records := by
  rintro ⟨b, now⟩ called
  have told : b ∈ reported (j.process t s records).events := by
    rw [← j.map_fst_calls t s records]
    exact List.mem_map_of_mem called
  have part := name.canWrite_of_subset (j.subset_of_mem_reported t s records b told) writable
  simp [ReturnsFrom, report, chosen, ReporterName.reporter, name.error_write, part]

end Handed

/-- Over the same records, two runs with the same options that differ in the reporter hand on the
same records, make known the same, and end with the same tally and the same verdict. Two runs with
the same reporter and the same limit call it on the same findings of the same records; before the
verdict they write the same lines and hand on the same records in the same order, and they tell
just as often that the limit is reached. -/
theorem reporter_decides_nothing [Wording] (records : List Record)
    (decodes : ∀ r ∈ records, r.Decodes) :
    (∀ (σ τ : Type) (options : ReportOptions) (first : Option (Reporter σ))
      (second : Option (Reporter τ)) (s : σ) (s' : τ),
      let j : Judge σ := ⟨first, options⟩
      let k : Judge τ := ⟨second, options⟩
      let one := j.process j.start s records
      let other := k.process k.start s' records
      OnlyLooks first → OnlyLooks second →
        j.Returns j.start s records → k.Returns k.start s' records →
          emitted one.events = records ∧ emitted other.events = records ∧
            announced one.events = announced other.events ∧
            one.tally = other.tally ∧ one.error = other.error) ∧
      ∀ (σ : Type) (reporter : Option (Reporter σ)) (first second : ReportOptions) (s : σ),
        let j : Judge σ := ⟨reporter, first⟩
        let k : Judge σ := ⟨reporter, second⟩
        let one := j.process j.start s records
        let other := k.process k.start s records
        first.limit = second.limit → OnlyLooks reporter →
          j.Returns j.start s records → k.Returns k.start s records →
            (∃ front verdict front' verdict',
              one.events = front ++ verdict ∧ other.events = front' ++ verdict' ∧
                front.map Event.withoutOptions = front'.map Event.withoutOptions ∧
                emitted front = records ∧ emitted front' = records ∧
                ∀ v ∈ [verdict, verdict'], reported v = [] ∧
                  (logged v).filter (·.channel ≠ .info) = [] ∧ notices first.limit v = 0) ∧
              (reported one.events).map Batch.withoutOptions =
                (reported other.events).map Batch.withoutOptions ∧
              (logged one.events).filter (·.channel ≠ .info) =
                (logged other.events).filter (·.channel ≠ .info) ∧
              notices first.limit one.events = notices first.limit other.events := by
  constructor
  · intro σ τ options first second s s' j k one other looksFirst looksSecond returnsFirst
      returnsSecond
    exact ⟨j.emitted_process_start s records decodes returnsFirst,
      k.emitted_process_start s' records decodes returnsSecond,
      outcome_of_either_reporter decodes options s s' looksFirst looksSecond returnsFirst
        returnsSecond⟩
  · intro σ reporter first second s j k one other same looks returnsFirst returnsSecond
    have parts := front_of_either_options decodes looks s same returnsFirst returnsSecond
    refine ⟨parts, ?_⟩
    obtain ⟨front, verdict, front', verdict', whole, whole', alike, -, -, silent⟩ := parts
    obtain ⟨calls, lines, tells⟩ := silent verdict (by simp)
    obtain ⟨calls', lines', tells'⟩ := silent verdict' (by simp)
    refine ⟨?_, ?_, ?_⟩
    · rw [whole, whole', reported_append, reported_append, calls, calls', List.append_nil,
        List.append_nil, ← reported_withoutOptions, alike, reported_withoutOptions]
    · rw [whole, whole', logged_append, logged_append, List.filter_append, List.filter_append,
        lines, lines', ← logged_withoutOptions, alike, logged_withoutOptions]
    · rw [whole, whole', notices_append, notices_append, tells, tells',
        ← notices_withoutOptions front, alike, notices_withoutOptions]

section Sample

attribute [local instance] Wording.leftOut

/-- Two records with two findings each, with and without a reporter, and with other options. -/
theorem reporter_decides_nothing_sample :
    let records := [Record.sample, Record.sample]
    let told : Judge Unit := ⟨some ReporterName.prose.reporter, ⟨true, 3, false⟩⟩
    let untold : Judge Unit := ⟨none, ⟨true, 3, false⟩⟩
    let counted : Judge Unit := ⟨some ReporterName.prose.reporter, ⟨false, 3, true⟩⟩
    announced (told.process told.start () records).events =
        announced (untold.process untold.start () records).events ∧
      (told.process told.start () records).error =
        (untold.process untold.start () records).error ∧
      (logged (told.process told.start () records).events).filter (·.channel ≠ .info) =
        (logged (counted.process counted.start () records).events).filter (·.channel ≠ .info) := by
  intro records told untold counted
  have decodes : ∀ r ∈ records, r.Decodes := by
    simp [records, Record.sample_decodes]
  have writable : ReporterName.prose.canWrite (foundIn records) = true := by
    simp only [records, foundIn, List.flatMap_cons, Record.sample_found]
    decide +kernel
  have returns := told.returns_of_canWrite told.start () .prose rfl records writable
  have returnsCounted := counted.returns_of_canWrite counted.start () .prose rfl records writable
  obtain ⟨withReporter, withOptions⟩ := reporter_decides_nothing records decodes
  obtain ⟨-, -, same, -, verdict⟩ := withReporter Unit Unit told.options told.reporter none () ()
    (.builtIn .prose) .none returns (untold.returns_of_none _ _ rfl _)
  obtain ⟨-, -, lines, -⟩ := withOptions Unit told.reporter told.options counted.options () rfl
    (.builtIn .prose) returns returnsCounted
  exact ⟨same, verdict, lines⟩

/-- A silent reporter that returns, but works off its list, is told from one that does not: the
totals are others, and so is what is known of the limit. -/
theorem emptied_list_is_noticed :
    let records := [Record.sample, Record.sample]
    let worksOff : Judge Unit := ⟨some emptying, ⟨true, 3, false⟩⟩
    let looks : Judge Unit := ⟨some quiet, ⟨true, 3, false⟩⟩
    let one := worksOff.process worksOff.start () records
    let other := looks.process looks.start () records
    (∀ r ∈ records, r.Decodes) ∧ OnlyLooks worksOff.reporter ∧ OnlyLooks looks.reporter ∧
      (∀ b s, (emptying b s).written.error = none) ∧
      (∀ b s, (quiet b s).written.error = none) ∧
      one.tally.reported = 0 ∧ other.tally.reported = 3 ∧
      one.tally.suppressed = false ∧ other.tally.suppressed = true := by
  intro records worksOff looks one other
  have decodes : ∀ r ∈ records, r.Decodes := by
    simp [records, Record.sample_decodes]
  have passed : worksOff.pass worksOff.start () records = _ := pass_emptying
  have first : one = _ := worksOff.process_of_pass worksOff.start () records (by rw [passed])
  have returns : looks.Returns looks.start () records := fun _ _ => ⟨rfl, rfl⟩
  have second : other = _ := looks.process_start () records decodes returns
  refine ⟨decodes, .silent _ fun _ _ => rfl, .silent _ fun _ _ => rfl, fun _ _ => rfl,
    fun _ _ => rfl, ?_, ?_, ?_, ?_⟩
  · rw [first, passed]
  · rw [second]
    simp [records, looks, Tally.after, foundIn, upTo, Record.sampleFindings]
  · rw [first, passed]
  · rw [second]
    simp [records, looks, Tally.after, foundIn, IsSpent, Record.sampleFindings]

end Sample

end Judge

end LintRun
