import LintRun.Proofs.Engine.Answers
import LintRun.Proofs.Linting.Arrivals

/-!
# Records handed on and records refused

With an error handler and without a limit on time, what the linting stage does with a record turns
on the call that fails. If the resolver does, the record goes to the error handler, and the engine
never hears of it; if the engine does, the stage stops, and the error handler never hears of it.
So records on which no engine fails are parted in two, each part in order (`parts_records`).
-/
namespace LintRun

def Record.IsBuffered (r : Record) : Prop := r.isNull = true ∨ ∃ text, r.text = .ok text

section Text

variable {r : Record} {text : String} (decoded : r.text = .ok text)

include decoded

theorem Record.isNull_of_text : r.isNull = false := by
  unfold Record.text at decoded
  split at decoded
  · next holds => simp [isNull, holds]
  · cases decoded

theorem Record.isStream_of_text : r.isStream = false := by
  unfold Record.text at decoded
  split at decoded
  · next holds => simp [isStream, holds]
  · cases decoded

end Text

/-- An ordinary error of the resolver, but for one that is overtime already, is told by way of the
file. -/
theorem Error.ofResolver_resolution (path : Path) (e : Error)
    (uncancelled : ∀ words, e ≠ .cancelled words) (inTime : ∀ p phase t, e ≠ .overtime p phase t) :
    ∃ p cause, e.ofResolver path = .resolution p cause := by
  cases e with
  | cancelled words => exact absurd rfl (uncancelled words)
  | overtime p phase t => exact absurd rfl (inTime p phase t)
  | _ => exact ⟨_, _, rfl⟩

namespace Linter

variable {σ : Type} (l : Linter σ)

/-- The call of the resolver for a record that arrives, with the state after it. -/
def lookUp (a : Arrival σ) : Call Table × σ := l.resolver a.record.path a.state

/-- The call of the engine for a record that arrives, with the state after it. -/
def inquire (a : Arrival σ) (configuration : Table) (text : String) : Call Payload × σ :=
  l.engine.run (l.requestFor a.record configuration text) (l.lookUp a).2

/-- Nothing about a record that arrives stops the stage: it is buffered, the resolver is neither
cancelled nor ends as overtime, the error handler returns if it gets the record, and the engine
answers by a payload if it is asked. -/
structure Undisturbed (a : Arrival σ) : Prop where
  buffered : a.record.IsBuffered
  uncancelled : a.record.isNull = false → ∀ words, (l.lookUp a).1.ending ≠ .error (.cancelled words)
  inTime : a.record.isNull = false →
    ∀ path phase t, (l.lookUp a).1.ending ≠ .error (.overtime path phase t)
  returns : a.record.isNull = false → ∀ handle path cause, l.handler = some handle →
    (handle a.record (.resolution path cause) (l.lookUp a).2).1 = none
  answered : ∀ configuration text, (l.lookUp a).1.ending = .ok configuration →
    a.record.text = .ok text → ∃ p, (l.inquire a configuration text).1.ending = .ok p

theorem undisturbed_of_null (a : Arrival σ) (null : a.record.isNull = true) :
    l.Undisturbed a where
  buffered := .inl null
  uncancelled some := by simp [null] at some
  inTime some := by simp [null] at some
  returns some := by simp [null] at some
  answered _ _ _ decoded := by simp [Record.isNull_of_text decoded] at null

/-- A record that arrives holds nothing, or its configuration is found out. -/
def passes (a : Arrival σ) : Bool := a.record.isNull || (l.lookUp a).1.ending.isOk

/-- What the stage does with a record that arrives, and how it leaves it. -/
inductive Settles (a : Arrival σ) : List Event → Record → Prop where
  /-- The record holds nothing, and is handed on as it is; nobody is asked. -/
  | skipped (null : a.record.isNull = true) :
    Settles a
      [.log .debug s!"skip path={a.record.relative} reason=no-content", .emit a.record] a.record
  /-- The resolver fails. The error handler gets the record as it is; the engine is not asked. -/
  | refused (some : a.record.isNull = false) (e : Error)
    (unresolved : (l.lookUp a).1.ending = .error e) (path cause : String)
    (told : e.ofResolver a.record.path = .resolution path cause) :
    Settles a [.resolve a.record.path, .refuse a.record (.resolution path cause)] a.record
  /-- The record is handed on with the answer of the engine. -/
  | linted (some : a.record.isNull = false) (configuration : Table)
    (resolved : (l.lookUp a).1.ending = .ok configuration) (text : String)
    (decoded : a.record.text = .ok text) (p : Payload)
    (answered : (l.inquire a configuration text).1.ending = .ok p) :
    Settles a
      (.resolve a.record.path :: l.requests a.record configuration text ++
        [.log .debug s!"linted path={a.record.relative}", .emit { a.record with lint := p }])
      { a.record with lint := p }

section Settling

variable {l} {a : Arrival σ} {turn : List Event} {left : Record}

theorem emitted_requests (r : Record) (configuration : Table) (text : String) :
    emitted (l.requests r configuration text) = [] := by
  simp [emitted, requests]

/-- A record is handed on exactly if it holds nothing or its configuration is found out. -/
theorem Settles.emitted_turn (settles : l.Settles a turn left) :
    emitted turn = if l.passes a then [left] else [] := by
  cases settles with
  | skipped null => simp [passes, null, emitted]
  | refused some e unresolved =>
    simp [passes, some, unresolved, emitted, Except.isOk, Except.toBool]
  | linted some configuration resolved =>
    have nothing := l.emitted_requests a.record configuration
    simp only [emitted] at nothing
    simp [passes, resolved, emitted, nothing, Except.isOk, Except.toBool]

/-- The error handler gets all other records, each with an error that tells what the resolver
failed on. -/
theorem Settles.refused_turn (settles : l.Settles a turn left) :
    (LintRun.refused turn).map Prod.fst = (if l.passes a then [] else [a.record]) ∧
      ∀ x ∈ LintRun.refused turn, ∃ path cause, x.2 = .resolution path cause := by
  cases settles with
  | skipped null => simp [passes, null, LintRun.refused]
  | refused some e unresolved path cause =>
    simp [passes, some, unresolved, LintRun.refused, Except.isOk, Except.toBool]
  | linted some configuration resolved =>
    have nothing := l.refused_requests a.record configuration
    simp only [LintRun.refused] at nothing
    simp [passes, resolved, LintRun.refused, nothing, Except.isOk, Except.toBool]

end Settling

section Visit

variable {l} (unlimited : l.limit = none) (a : Arrival σ)

include unlimited

/-- A record on which the resolver fails goes to the error handler. -/
theorem visit_of_unresolved {handle : ErrorHandler σ} (chosen : l.handler = some handle)
    (some : a.record.isNull = false) (buffered : a.record.isStream = false) (e : Error)
    (unresolved : (l.lookUp a).1.ending = .error e) (path cause : String)
    (told : e.ofResolver a.record.path = .resolution path cause)
    (returns : (handle a.record (.resolution path cause) (l.lookUp a).2).1 = none) :
    l.visit a = ⟨[.resolve a.record.path, .refuse a.record (.resolution path cause)],
      (handle a.record (.resolution path cause) (l.lookUp a).2).2, .dropped⟩ := by
  have resolved : l.resolve a.record a.state =
      (.error (.resolution path cause), (l.lookUp a).2) := by
    simp only [lookUp] at unresolved
    simp [resolve, unlimited, Call.within, unresolved, told, lookUp]
  simp only [visit, Linter.handle, some, buffered, Bool.false_eq_true, if_false, lint, resolved,
    l.refuse_of_handler _ _ _ chosen]
  rcases called : handle a.record (.resolution path cause) (l.lookUp a).2 with ⟨ending, last⟩
  rw [called] at returns
  cases returns
  rfl

/-- A record whose configuration is found out goes to the engine. -/
theorem visit_of_resolved (configuration : Table)
    (resolved : (l.lookUp a).1.ending = .ok configuration) (text : String)
    (decoded : a.record.text = .ok text) :
    l.visit a =
      l.ask a.record [.resolve a.record.path] (l.lookUp a).2 configuration text := by
  simp only [lookUp] at resolved
  simp [visit, handle, Record.isNull_of_text decoded, Record.isStream_of_text decoded, lint,
    resolve, unlimited, Call.within, resolved, decoded, lookUp]

theorem visit_of_answered (configuration : Table)
    (resolved : (l.lookUp a).1.ending = .ok configuration) (text : String)
    (decoded : a.record.text = .ok text) (p : Payload)
    (answered : (l.inquire a configuration text).1.ending = .ok p) :
    l.visit a =
      ⟨.resolve a.record.path :: l.requests a.record configuration text ++
          [.log .debug s!"linted path={a.record.relative}"],
        (l.inquire a configuration text).2, .emitted { a.record with lint := p }⟩ := by
  simp only [inquire, requestFor] at answered
  rw [visit_of_resolved unlimited a configuration resolved text decoded]
  simp [ask, unlimited, Call.within, answered, requests, inquire, requestFor]

/-- An engine that fails stops the stage: the error handler is not asked. -/
theorem visit_of_failed (configuration : Table)
    (resolved : (l.lookUp a).1.ending = .ok configuration) (text : String)
    (decoded : a.record.text = .ok text) (e : Error)
    (failed : (l.inquire a configuration text).1.ending = .error e)
    (uncancelled : ∀ words, e ≠ .cancelled words) :
    l.visit a =
      ⟨.resolve a.record.path :: l.requests a.record configuration text,
        (l.inquire a configuration text).2, .failed e⟩ := by
  simp only [inquire, requestFor] at failed
  rw [visit_of_resolved unlimited a configuration resolved text decoded]
  simp only [ask, unlimited, Call.within, failed]
  cases e with
  | cancelled words => exact absurd rfl (uncancelled words)
  | _ => rfl

/-- A record that nothing stops the stage on is settled. -/
theorem settles_of_undisturbed {handle : ErrorHandler σ} (chosen : l.handler = some handle)
    (undisturbed : l.Undisturbed a) :
    (l.visit a).Passes ∧ l.Settles a (l.turn a) (l.left a) := by
  unfold turn left Visit.Passes
  by_cases null : a.record.isNull = true
  · have visit : l.visit a =
        ⟨[.log .debug s!"skip path={a.record.relative} reason=no-content"], a.state,
          .emitted a.record⟩ := by
      simp [Linter.visit, Linter.handle, null]
    rw [visit]
    exact ⟨by simp, .skipped null⟩
  · have some : a.record.isNull = false := by simpa using null
    obtain ⟨text, decoded⟩ := undisturbed.buffered.resolve_left null
    cases ending : (l.lookUp a).1.ending with
    | error e =>
      obtain ⟨path, cause, told⟩ := e.ofResolver_resolution a.record.path
        (fun words same => undisturbed.uncancelled some words (same ▸ ending))
        (fun p phase t same => undisturbed.inTime some p phase t (same ▸ ending))
      rw [visit_of_unresolved unlimited a chosen some (Record.isStream_of_text decoded) e ending
        path cause told (undisturbed.returns some handle path cause chosen)]
      exact ⟨by simp, .refused some e ending path cause told⟩
    | ok configuration =>
      obtain ⟨p, answered⟩ := undisturbed.answered configuration text ending decoded
      rw [visit_of_answered unlimited a configuration ending text decoded p answered]
      refine ⟨by simp, ?_⟩
      simpa [Visit.turn, Visit.left, Visit.handed] using
        Settles.linted some configuration ending text decoded p answered

end Visit

section Turns

variable {l} (arrivals : List (Arrival σ))
  (settles : ∀ a ∈ arrivals, l.Settles a (l.turn a) (l.left a))

include settles

/-- The turns of settled records hand on those that pass, as they are left. -/
theorem emitted_turns :
    emitted (arrivals.flatMap l.turn) = (arrivals.filter l.passes).map l.left := by
  induction arrivals with
  | nil => rfl
  | cons a rest ih =>
    have now := (settles a (by simp)).emitted_turn
    have later := ih fun x member => settles x (by simp [member])
    rw [List.flatMap_cons, emitted_append, now, later]
    cases passes : l.passes a <;> simp [passes]

/-- The turns of settled records give all others to the error handler. -/
theorem refused_turns :
    (refused (arrivals.flatMap l.turn)).map Prod.fst =
        (arrivals.filter fun a => !l.passes a).map Arrival.record ∧
      ∀ x ∈ refused (arrivals.flatMap l.turn),
        ∃ path cause, x.2 = .resolution path cause := by
  induction arrivals with
  | nil => simp [refused]
  | cons a rest ih =>
    obtain ⟨record, told⟩ := (settles a (by simp)).refused_turn
    obtain ⟨records, allTold⟩ := ih fun x member => settles x (by simp [member])
    rw [List.flatMap_cons, refused_append]
    constructor
    · rw [List.map_append, record, records]
      cases passes : l.passes a <;> simp [passes]
    · intro x member
      exact (List.mem_append.mp member).elim (told x) (allTold x)

end Turns

/-- With an error handler and no limit on time, records on which nothing stops the stage are parted:
it ends well, hands on those that hold nothing or whose configuration is found out, and gives each
other one to the error handler once, with the error that tells what the resolver failed on, all in
order. What becomes of each is said by `Settles`. An engine that fails stops the stage at its
record, and the error handler does not get it. The error is one of the engine unless the engine has
given back something that cannot be quoted. -/
theorem parts_records (l : Linter σ) (unlimited : l.limit = none) (handle : ErrorHandler σ)
    (chosen : l.handler = some handle) (s : σ) (records : List Record) :
    let run := l.process s records
    let arrivals := l.arrivals s records
    ((∀ a ∈ arrivals, l.Undisturbed a) →
      run.error = none ∧ arrivals.map Arrival.record = records ∧
      run.events = arrivals.flatMap l.turn ∧ run.records = arrivals.map l.left ∧
      (∀ a ∈ arrivals, l.Settles a (l.turn a) (l.left a)) ∧
      emitted run.events = (arrivals.filter l.passes).map l.left ∧
      (refused run.events).map Prod.fst =
        (arrivals.filter fun a => !l.passes a).map Arrival.record ∧
      ∀ x ∈ refused run.events, ∃ path cause, x.2 = .resolution path cause) ∧
    ∀ before r later configuration text e,
      records = before ++ r :: later → (l.process s before).error = none →
      let front := l.process s before
      let a : Arrival σ := ⟨r, front.state⟩
      (l.lookUp a).1.ending = .ok configuration → r.text = .ok text →
      (l.inquire a configuration text).1.ending = .error e → (∀ words, e ≠ .cancelled words) →
      run = ⟨front.events ++ .resolve r.path :: l.requests r configuration text,
        front.records ++ r :: later, (l.inquire a configuration text).2, some e⟩ ∧
      ((∃ p, e = .engine p) ↔
        ¬ l.engine.GivesUntold (l.requestFor r configuration text) (l.lookUp a).2) := by
  intro run arrivals
  constructor
  · intro undisturbed
    have settled (a : Arrival σ) (member : a ∈ arrivals) :=
      settles_of_undisturbed unlimited a chosen (undisturbed a member)
    have settles (a : Arrival σ) (member : a ∈ arrivals) := (settled a member).2
    obtain ⟨reached, events, left⟩ :=
      l.process_of_arrivals s records fun a member => (settled a member).1
    refine ⟨reached, l.map_record_arrivals s records, events, left, settles, ?_⟩
    rw [show run.events = _ from events]
    exact ⟨emitted_turns arrivals settles, refused_turns arrivals settles⟩
  · rintro before r later configuration text e rfl reached front a resolved decoded failed
      uncancelled
    constructor
    · have stopped := l.process_of_failed front.state later r _ _ e
        (visit_of_failed unlimited a configuration resolved text decoded e failed uncancelled)
      calc run
        _ = ⟨front.events ++ (l.process front.state (r :: later)).events,
              front.records ++ (l.process front.state (r :: later)).records,
              (l.process front.state (r :: later)).state,
              (l.process front.state (r :: later)).error⟩ :=
            l.process_append s before (r :: later) reached
        _ = _ := by rw [stopped]
    · exact l.engine.fails_by_engine_iff _ _ e failed uncancelled

/-- A resolver that fails on one file, and an engine that fails on another. -/
def sample : Linter Unit where
  resolver path s :=
    (⟨if path.names = ["b.ts"] then .error (.outside .timeout "gone") else .ok [], 0⟩, s)
  engine := .callable fun q s =>
    (⟨if q.relative = "d.ts" then .error (.resolution "d.ts" "lost")
      else .ok (.payload ⟨"", "json"⟩), 0⟩, s)
  rulesDirectory := none
  limit := none
  handler := some fun _ _ s => (none, s)

def empty (name : String) : Record := ⟨⟨.root, [name]⟩, name, .bytes .empty, none⟩

theorem sample_undisturbed (name : String) (other : name ≠ "d.ts") (s : Unit) :
    sample.Undisturbed ⟨empty name, s⟩ where
  buffered := .inr ⟨_, rfl⟩
  uncancelled _ words := by
    by_cases fails : name = "b.ts" <;> simp [lookUp, sample, empty, fails]
  inTime _ path phase t := by
    by_cases fails : name = "b.ts" <;> simp [lookUp, sample, empty, fails]
  returns _ handle path cause chosen := by
    cases chosen
    rfl
  answered configuration text _ _ := by
    simp [inquire, sample, requestFor, empty, Engine.run, Call.toPayload, other, Answer.toPayload]

/-- One file is linted, one goes to the error handler, and one that holds nothing passes. -/
theorem parts_records_sample :
    let nothing : Record := ⟨⟨.root, ["c.ts"]⟩, "c.ts", .absent, none⟩
    let run := sample.process () [empty "a.ts", empty "b.ts", nothing]
    let stopped := sample.process () [empty "b.ts", empty "d.ts", nothing]
    sample.limit = none ∧ sample.handler = some (fun _ _ s => (none, s)) ∧
      run.error = none ∧
      emitted run.events = [{ empty "a.ts" with lint := some ⟨"", "json"⟩ }, nothing] ∧
      (refused run.events).map Prod.fst = [empty "b.ts"] ∧
      ∃ p, stopped.error = some (.engine p) := by
  intro nothing run stopped
  obtain ⟨partition, -⟩ :=
    parts_records sample rfl _ rfl () [empty "a.ts", empty "b.ts", nothing]
  obtain ⟨-, failure⟩ :=
    parts_records sample rfl _ rfl () [empty "b.ts", empty "d.ts", nothing]
  have undisturbed : ∀ a ∈ sample.arrivals () [empty "a.ts", empty "b.ts", nothing],
      sample.Undisturbed a := by
    intro a member
    simp only [arrivals, List.mem_cons, List.not_mem_nil, or_false] at member
    rcases member with rfl | rfl | rfl
    · exact sample_undisturbed _ (by decide) _
    · exact sample_undisturbed _ (by decide) _
    · exact sample.undisturbed_of_null _ rfl
  obtain ⟨reached, -, -, -, -, handed, refusals, -⟩ := partition undisturbed
  obtain ⟨ending, -⟩ := failure [empty "b.ts"] (empty "d.ts") [nothing] [] _
    (.engine (.failed "d.ts" (Error.resolution "d.ts" "lost").message)) rfl rfl rfl rfl rfl
    (by simp)
  refine ⟨rfl, rfl, reached, handed.trans rfl, refusals.trans rfl, ?_⟩
  rw [show stopped = _ from ending]
  exact ⟨_, rfl⟩

/-- An engine that gives back lists nested too deep stops the stage by an error that is none of the
engine. -/
theorem nested_answer_untold :
    let engine : Engine Unit := .callable fun _ s => (⟨.ok (.value (.nested 985)), 0⟩, s)
    let l : Linter Unit :=
      ⟨fun _ s => (⟨.ok [], 0⟩, s), engine, none, none, some fun _ _ s => (none, s)⟩
    let run := l.process () [empty "a.ts"]
    run.error = some (.ofExcess .quoting) ∧ ¬ ∃ p, run.error = some (.engine p) := by
  intro engine l run
  obtain ⟨text, decoded⟩ : ∃ text, (empty "a.ts").text = .ok text := ⟨_, rfl⟩
  have failed : (l.inquire ⟨empty "a.ts", ()⟩ [] text).1.ending = .error (.ofExcess .quoting) :=
    Answer.toPayload_of_untold "a.ts" (Answer.untold_nested 985 (by decide))
  have stopped := l.process_of_failed () [] (empty "a.ts") _ _ _
    (visit_of_failed rfl ⟨empty "a.ts", ()⟩ [] rfl text decoded _ failed (by simp [Error.ofExcess]))
  rw [show run = _ from stopped]
  exact ⟨rfl, by simp [Error.ofExcess]⟩

end Linter

end LintRun
