import LintRun.Proofs.Engine.Answers
import LintRun.Proofs.Trace

/-!
# A visit of a record

All that the linting stage can do for one record, as a relation with one case for each way through
the stage (`handle_visits`). What holds of every visit follows case by case: its events are about
that record alone, a record handed on differs from the one that came at most in its payload, and
the errors that end it are of the stage's own kinds, unless the error handler ends with one.
-/
namespace LintRun

namespace Error

/-- An error while a configuration is found out is told with the file, unless it is a timeout or a
cancellation. -/
theorem ofResolver_cases (path : Path) (e : Error) :
    (∃ p cause, e.ofResolver path = .resolution p cause) ∨
      (∃ p phase t, e.ofResolver path = .overtime p phase t) ∨
      ∃ words, e.ofResolver path = .cancelled words := by
  cases e with
  | resolution p cause => exact .inl ⟨p, cause, rfl⟩
  | overtime p phase t => exact .inr (.inl ⟨p, phase, t, rfl⟩)
  | cancelled words => exact .inr (.inr ⟨words, rfl⟩)
  | _ => exact .inl ⟨_, _, rfl⟩

theorem ofResolver_eq_overtime (file : Path) (e : Error) (path phase : String) (t : Float)
    (told : e.ofResolver file = .overtime path phase t) : e = .overtime path phase t := by
  cases e with
  | overtime => exact told
  | _ => cases told

/-- An error of the engine side: of the engine itself, a cancellation, or one that comes of an
answer which could not be quoted. -/
def IsOfEngine (e : Error) : Prop :=
  (∃ p, e = .engine p) ∨ (∃ words, e = .cancelled words) ∨ (∃ x, e = .ofExcess x) ∨
    ∃ f, e = .ofFault f

theorem isOfEngine_ofEngine (relative : String) (e : Error) :
    (e.ofEngine relative).IsOfEngine := by
  cases e with
  | cancelled words => exact .inr (.inl ⟨words, rfl⟩)
  | _ => exact .inl ⟨_, rfl⟩

theorem IsOfEngine.ne_overtime {e : Error} (ofEngine : e.IsOfEngine) (path phase : String)
    (t : Float) : e ≠ .overtime path phase t := by
  rintro rfl
  rcases ofEngine with ⟨_, kind⟩ | ⟨_, kind⟩ | ⟨_, kind⟩ | ⟨_, kind⟩ <;> cases kind

theorem IsOfEngine.ne_failedRun {e : Error} (ofEngine : e.IsOfEngine) (verdict : Summary) :
    e ≠ .failedRun verdict := by
  rintro rfl
  rcases ofEngine with ⟨_, kind⟩ | ⟨_, kind⟩ | ⟨_, kind⟩ | ⟨_, kind⟩ <;> cases kind

end Error

theorem Answer.Untold.isOfEngine {a : Answer} {e : Error} (untold : a.Untold e) :
    e.IsOfEngine := by
  cases untold with
  | value _ x | format _ _ _ x => exact .inr (.inr (.inl ⟨x, rfl⟩))
  | outputFault _ _ f | formatFault _ _ f | quoteFault _ _ f => exact .inr (.inr (.inr ⟨f, rfl⟩))

/-- Every error that a call of an engine ends with is of the engine side. -/
theorem Engine.isOfEngine_of_run {σ : Type} (engine : Engine σ) (request : Request) (s : σ)
    (e : Error) (ending : (engine.run request s).1.ending = .error e) : e.IsOfEngine := by
  cases engine with
  | uncallable v =>
    cases ending
    exact Error.isOfEngine_ofEngine _ _
  | callable lint =>
    simp only [run, Call.toPayload] at ending
    split at ending
    · rcases Answer.engine_or_untold _ ending with ofEngine | untold
      · exact .inl ofEngine
      · exact untold.isOfEngine
    · cases ending
      exact Error.isOfEngine_ofEngine _ _

/-- A call under a limit ends with an error of its own, or as overtime: because it took too long,
or because the part that was called reports a timeout. -/
theorem Call.within_error {α : Type} (limit : Option Float) (path : Path) (phase : String)
    (c : Call α) (e : Error) (failed : c.within limit path phase = .error e) :
    c.ending = .error e ∨
      ∃ t, limit = some t ∧ e = .overtime path.toString phase t ∧
        (t < c.seconds ∨ ∃ words, c.ending = .error (.outside .timeout words)) := by
  cases limit with
  | none => exact .inl failed
  | some t =>
    simp only [within] at failed
    split at failed
    · next late =>
      cases failed
      exact .inr ⟨t, rfl, rfl, .inl late⟩
    · split at failed
      · next words timeout =>
        cases failed
        exact .inr ⟨t, rfl, rfl, .inr ⟨words, timeout⟩⟩
      · exact .inl failed

/-- An event of the linting stage that is about a record. -/
inductive Event.IsOf (r : Record) : Event → Prop where
  | skipped : IsOf r (.log .debug s!"skip path={r.relative} reason=no-content")
  | resolve : IsOf r (.resolve r.path)
  | refuse (e : Error) : IsOf r (.refuse r e)
  | request (q : Request) (relative : q.relative = r.relative) (text : r.text = .ok q.text) :
    IsOf r (.request q)
  | linted : IsOf r (.log .debug s!"linted path={r.relative}")
  | abandoned : IsOf r (Linter.abandoned r)

namespace Linter

variable {σ : Type}

def requestFor (l : Linter σ) (r : Record) (configuration : Table) (text : String) : Request :=
  ⟨r.relative, text, configuration, l.rulesDirectory⟩

def requests (l : Linter σ) (r : Record) (configuration : Table) (text : String) : List Event :=
  (l.engine.calls (l.requestFor r configuration text)).map .request

theorem refused_requests (l : Linter σ) (r : Record) (configuration : Table) (text : String) :
    refused (l.requests r configuration text) = [] := by
  simp [refused, requests]

/-- The error handler gets a record that comes in a state, and ends with an error of its own. -/
inductive HandlerEnds (l : Linter σ) (r : Record) (s : σ) (e : Error) : σ → Prop where
  | intro (some : r.isNull = false) (buffered : r.isStream = false) (path cause : String) (next : σ)
    (unresolved : l.resolve r s = (.error (.resolution path cause), next))
    (handle : ErrorHandler σ) (chosen : l.handler = .some handle) (last : σ)
    (raises : handle r (.resolution path cause) next = (.some e, last)) : HandlerEnds l r s e last

/-- The ways through the linting stage for a record that comes in a state. -/
inductive Visits (l : Linter σ) (r : Record) (s : σ) : Visit σ → Prop where
  /-- The record holds nothing. -/
  | skipped (null : r.isNull = true) :
    Visits l r s ⟨[.log .debug s!"skip path={r.relative} reason=no-content"], s, .emitted r⟩
  /-- The record holds a stream. -/
  | streaming (some : r.isNull = false) (stream : r.isStream = true) :
    Visits l r s ⟨[], s, .failed (.unsupported "Streaming not supported")⟩
  /-- The record is given to the error handler. -/
  | dropped (some : r.isNull = false) (buffered : r.isStream = false) (path cause : String)
    (next : σ) (unresolved : l.resolve r s = (.error (.resolution path cause), next))
    (handle : ErrorHandler σ) (chosen : l.handler = .some handle) (last : σ)
    (returns : handle r (.resolution path cause) next = (none, last)) :
    Visits l r s ⟨[.resolve r.path, .refuse r (.resolution path cause)], last, .dropped⟩
  /-- The error handler gets the record, and ends with an error of its own. -/
  | raised (path cause : String) (e : Error) (last : σ) (ends : l.HandlerEnds r s e last) :
    Visits l r s (fail r [.resolve r.path, .refuse r (.resolution path cause)] last e)
  /-- The configuration cannot be found out, and the error handler does not get the error. -/
  | unresolved (some : r.isNull = false) (buffered : r.isStream = false) (e : Error)
    (next : σ) (unresolved : l.resolve r s = (.error e, next))
    (unhandled : l.handler = none ∨ ∀ path cause, e ≠ .resolution path cause) :
    Visits l r s (fail r [.resolve r.path] next e)
  /-- The record holds neither bytes nor a stream. -/
  | unbuffered (some : r.isNull = false) (buffered : r.isStream = false) (configuration : Table)
    (next : σ) (resolved : l.resolve r s = (.ok configuration, next)) (e : Error)
    (textless : r.text = .error e) :
    Visits l r s (fail r [.resolve r.path] next e)
  /-- The engine fails, or takes too long. -/
  | refused (some : r.isNull = false) (buffered : r.isStream = false) (configuration : Table)
    (next : σ) (resolved : l.resolve r s = (.ok configuration, next)) (text : String)
    (decoded : r.text = .ok text) (c : Call Payload) (last : σ)
    (asked : l.engine.run (l.requestFor r configuration text) next = (c, last)) (e : Error)
    (failed : c.within l.limit r.path "Linting" = .error e) :
    Visits l r s (fail r (.resolve r.path :: l.requests r configuration text) last e)
  /-- The record gets the answer of the engine. -/
  | linted (some : r.isNull = false) (buffered : r.isStream = false) (configuration : Table)
    (next : σ) (resolved : l.resolve r s = (.ok configuration, next)) (text : String)
    (decoded : r.text = .ok text) (c : Call Payload) (last : σ)
    (asked : l.engine.run (l.requestFor r configuration text) next = (c, last)) (p : Payload)
    (answered : c.within l.limit r.path "Linting" = .ok p) :
    Visits l r s
      ⟨.resolve r.path :: l.requests r configuration text ++
        [.log .debug s!"linted path={r.relative}"], last, .emitted { r with lint := .some p }⟩

/-- An error of the resolver is told by way of the file. -/
theorem resolve_error (l : Linter σ) (r : Record) (s : σ) (e : Error) (next : σ)
    (unresolved : l.resolve r s = (.error e, next)) :
    ∃ c cause, l.resolver r.path s = (c, next) ∧
      c.within l.limit r.path "Config resolution" = .error cause ∧
      e = Error.ofResolver r.path cause := by
  unfold resolve at unresolved
  obtain ⟨told, rfl⟩ := Prod.mk.inj unresolved
  split at told
  · cases told
  · next cause failed =>
    cases told
    exact ⟨_, cause, rfl, failed, rfl⟩

/-- A record whose configuration cannot be found out. -/
theorem handle_of_unresolved (l : Linter σ) (r : Record) (s : σ) (some : r.isNull = false)
    (buffered : r.isStream = false) {e : Error} {next : σ}
    (unresolved : l.resolve r s = (.error e, next)) :
    l.handle r s = l.refuse r [.resolve r.path] next e := by
  simp only [handle, some, buffered, Bool.false_eq_true, if_false, lint, unresolved]

/-- A record whose configuration is found out goes to the engine. -/
theorem handle_of_resolved (l : Linter σ) (r : Record) (s : σ) (some : r.isNull = false)
    (buffered : r.isStream = false) {configuration : Table} {next : σ}
    (resolved : l.resolve r s = (.ok configuration, next)) {text : String}
    (decoded : r.text = .ok text) :
    l.handle r s = l.ask r [.resolve r.path] next configuration text := by
  simp only [handle, some, buffered, Bool.false_eq_true, if_false, lint, resolved, decoded]

/-- An engine that fails, or takes too long, stops the stage. -/
theorem ask_of_error (l : Linter σ) (r : Record) (events : List Event) (s : σ)
    {configuration : Table} {text : String} {e : Error}
    (failed : (l.engine.run (l.requestFor r configuration text) s).1.within l.limit r.path
      "Linting" = .error e) :
    l.ask r events s configuration text =
      fail r (events ++ l.requests r configuration text)
        (l.engine.run (l.requestFor r configuration text) s).2 e := by
  simp only [requestFor] at failed
  simp only [ask, failed, requests, requestFor]

section Refuse

variable (l : Linter σ) (r : Record) (events : List Event) (s : σ)

/-- An error that the error handler does not get stops the stage. -/
theorem refuse_of_unhandled {e : Error}
    (unhandled : l.handler = none ∨ ∀ path cause, e ≠ .resolution path cause) :
    l.refuse r events s e = fail r events s e := by
  unfold refuse
  split
  · next path cause chosen =>
    rcases unhandled with nobody | other
    · cases nobody.symm.trans chosen
    · exact absurd rfl (other path cause)
  · rfl

/-- The error handler decides about a record that it gets. -/
theorem refuse_of_handler {handle : ErrorHandler σ} (chosen : l.handler = some handle)
    (path cause : String) :
    l.refuse r events s (.resolution path cause) =
      match handle r (.resolution path cause) s with
      | (none, s) => ⟨events ++ [.refuse r (.resolution path cause)], s, .dropped⟩
      | (some e, s) => fail r (events ++ [.refuse r (.resolution path cause)]) s e := by
  rcases called : handle r (.resolution path cause) s with ⟨_ | e, last⟩ <;>
    simp only [refuse, chosen, called]

theorem refuse_visits (some : r.isNull = false) (buffered : r.isStream = false) (e : Error)
    (next : σ) (unresolved : l.resolve r s = (.error e, next)) :
    l.Visits r s (l.refuse r [.resolve r.path] next e) := by
  by_cases handled : ∃ handle path cause, l.handler = .some handle ∧ e = .resolution path cause
  · obtain ⟨handle, path, cause, chosen, rfl⟩ := handled
    rw [l.refuse_of_handler _ _ _ chosen]
    rcases called : handle r (.resolution path cause) next with ⟨_ | e, last⟩
    · exact .dropped some buffered path cause next unresolved handle chosen last called
    · exact .raised path cause e last
        ⟨some, buffered, path, cause, next, unresolved, handle, chosen, last, called⟩
  · have unhandled : l.handler = none ∨ ∀ path cause, e ≠ .resolution path cause := by
      cases chosen : l.handler with
      | none => exact .inl rfl
      | some handle =>
        exact .inr fun path cause same => handled ⟨handle, path, cause, chosen, same⟩
    rw [l.refuse_of_unhandled _ _ _ unhandled]
    exact .unresolved some buffered e next unresolved unhandled

end Refuse

theorem ask_visits (l : Linter σ) (r : Record) (s : σ) (some : r.isNull = false)
    (buffered : r.isStream = false) (configuration : Table) (next : σ)
    (resolved : l.resolve r s = (.ok configuration, next)) (text : String)
    (decoded : r.text = .ok text) :
    l.Visits r s (l.ask r [.resolve r.path] next configuration text) := by
  unfold ask
  cases asked : l.engine.run (l.requestFor r configuration text) next with
  | mk c last =>
    simp only [requestFor] at asked
    simp only [asked]
    cases ending : c.within l.limit r.path "Linting" with
    | error e =>
      exact .refused some buffered configuration next resolved text decoded c last asked e ending
    | ok p =>
      exact .linted some buffered configuration next resolved text decoded c last asked p ending

/-- Every visit goes one of these ways. -/
theorem handle_visits (l : Linter σ) (r : Record) (s : σ) : l.Visits r s (l.handle r s) := by
  unfold handle
  cases null : r.isNull with
  | true => exact .skipped null
  | false =>
    cases stream : r.isStream with
    | true => exact .streaming null stream
    | false =>
      simp only [Bool.false_eq_true, if_false, lint]
      cases resolution : l.resolve r s with
      | mk outcome next =>
        cases outcome with
        | error e => exact l.refuse_visits r s null stream e next resolution
        | ok configuration =>
          cases text : r.text with
          | error e => exact .unbuffered null stream configuration next resolution e text
          | ok text' => exact l.ask_visits r s null stream configuration next resolution text' text

section Fail

variable (r : Record) (events : List Event) (s : σ) (e : Error)

theorem fail_fate : (fail r events s e).fate = .failed e := by cases e <;> rfl

/-- Only a cancellation leaves an event of its own. -/
theorem mem_fail_events (x : Event) (member : x ∈ (fail r events s e).events) :
    x ∈ events ∨ x = abandoned r := by
  cases e with
  | cancelled words => simpa [fail] using member
  | _ => exact .inl member

/-- The error handler gets nothing from a stage that stops. -/
theorem refused_fail : refused (fail r events s e).events = refused events := by
  cases e <;> simp [fail, refused, abandoned]

end Fail

/-- A record on which the error handler fails stops the stage. -/
theorem HandlerEnds.fate_eq {l : Linter σ} {r : Record} {s last : σ} {e : Error}
    (ends : l.HandlerEnds r s e last) : (l.handle r s).fate = .failed e := by
  obtain ⟨some, buffered, path, cause, next, unresolved, handle, chosen, _, raises⟩ := ends
  rw [l.handle_of_unresolved r s some buffered unresolved, l.refuse_of_handler r _ next chosen,
    raises]
  exact fail_fate _ _ _ _

/-- An engine gets the request that is made. -/
theorem eq_requestFor_of_calls {l : Linter σ} {r : Record} {configuration : Table} {text : String}
    {q : Request} (asked : q ∈ l.engine.calls (l.requestFor r configuration text)) :
    q = l.requestFor r configuration text := by
  unfold Engine.calls at asked
  split at asked
  · exact List.mem_singleton.mp asked
  · cases asked

theorem isOf_calls (l : Linter σ) (r : Record) (configuration : Table) (text : String)
    (decoded : r.text = .ok text) (x : Event)
    (member : x ∈ l.requests r configuration text) : x.IsOf r := by
  obtain ⟨q, asked, rfl⟩ := List.mem_map.mp member
  obtain rfl := eq_requestFor_of_calls asked
  exact .request _ rfl decoded

section Visits

variable {l : Linter σ} {r : Record} {s : σ} {v : Visit σ} (visits : l.Visits r s v)

include visits

/-- The events of a visit are about its record. -/
theorem Visits.isOf (x : Event) (member : x ∈ v.events) : x.IsOf r := by
  cases visits with
  | skipped =>
    obtain rfl := List.mem_singleton.mp member
    exact .skipped
  | streaming => cases member
  | dropped =>
    simp only [List.mem_cons, List.not_mem_nil, or_false] at member
    rcases member with rfl | rfl
    · exact .resolve
    · exact .refuse _
  | raised =>
    rcases mem_fail_events _ _ _ _ x member with asked | rfl
    · simp only [List.mem_cons, List.not_mem_nil, or_false] at asked
      rcases asked with rfl | rfl
      · exact .resolve
      · exact .refuse _
    · exact .abandoned
  | unresolved =>
    rcases mem_fail_events _ _ _ _ x member with asked | rfl
    · obtain rfl := List.mem_singleton.mp asked
      exact .resolve
    · exact .abandoned
  | unbuffered =>
    rcases mem_fail_events _ _ _ _ x member with asked | rfl
    · obtain rfl := List.mem_singleton.mp asked
      exact .resolve
    · exact .abandoned
  | refused _ _ configuration _ _ text decoded =>
    rcases mem_fail_events _ _ _ _ x member with asked | rfl
    · rcases List.mem_cons.mp asked with rfl | called
      · exact .resolve
      · exact l.isOf_calls r configuration text decoded x called
    · exact .abandoned
  | linted _ _ configuration _ _ text decoded =>
    rcases List.mem_append.mp member with asked | last
    · rcases List.mem_cons.mp asked with rfl | called
      · exact .resolve
      · exact l.isOf_calls r configuration text decoded x called
    · obtain rfl := List.mem_singleton.mp last
      exact .linted

/-- A request of a visit is made for its record. -/
theorem Visits.request_eq (q : Request) (member : .request q ∈ v.events) :
    ∃ configuration text, r.text = .ok text ∧ q = l.requestFor r configuration text := by
  cases visits with
  | skipped => simp at member
  | streaming => cases member
  | dropped => simp at member
  | raised | unresolved | unbuffered =>
    rcases mem_fail_events _ _ _ _ _ member with asked | alone
    · simp at asked
    · cases alone
  | refused _ _ configuration _ _ text decoded =>
    rcases mem_fail_events _ _ _ _ _ member with asked | alone
    · refine ⟨configuration, text, decoded, eq_requestFor_of_calls ?_⟩
      simpa [requests] using asked
    · cases alone
  | linted _ _ configuration _ _ text decoded =>
    refine ⟨configuration, text, decoded, eq_requestFor_of_calls ?_⟩
    simpa [requests] using member

/-- The stage never gives a verdict of its own. -/
theorem Visits.failed_ne_failedRun (e : Error) (failed : v.fate = .failed e)
    (returns : ∀ last, ¬ l.HandlerEnds r s e last) (verdict : Summary) :
    e ≠ .failedRun verdict := by
  rintro rfl
  cases visits with
  | skipped => cases failed
  | streaming => cases failed
  | dropped => cases failed
  | linted => cases failed
  | raised _ _ _ last ends =>
    rw [fail_fate] at failed
    cases failed
    exact returns last ends
  | unresolved _ _ e _ unresolved =>
    rw [fail_fate] at failed
    cases failed
    obtain ⟨_, cause, _, _, told⟩ := l.resolve_error r s _ _ unresolved
    rcases Error.ofResolver_cases r.path cause with ⟨_, _, kind⟩ | ⟨_, _, _, kind⟩ | ⟨_, kind⟩
    all_goals
      rw [kind] at told
      cases told
  | unbuffered _ _ _ _ _ e textless =>
    rw [fail_fate] at failed
    cases failed
    unfold Record.text at textless
    split at textless <;> cases textless
  | refused _ _ configuration next _ text _ c last asked e failure =>
    rw [fail_fate] at failed
    cases failed
    rcases c.within_error _ _ _ _ failure with ending | ⟨_, _, overtime, _⟩
    · have kind := l.engine.isOfEngine_of_run (l.requestFor r configuration text) next
        (.failedRun verdict) (by rw [asked]; exact ending)
      exact kind.ne_failedRun verdict rfl
    · cases overtime

/-- A record handed on differs at most in its payload. -/
theorem Visits.emitted (r' : Record) (handed : v.fate = .emitted r') :
    r' = { r with lint := r'.lint } := by
  cases visits with
  | skipped => cases handed; rfl
  | linted => cases handed; rfl
  | streaming => cases handed
  | dropped => cases handed
  | raised | unresolved | unbuffered | refused => rw [fail_fate] at handed; cases handed

/-- A record without contents is handed on as it is. -/
theorem Visits.emitted_null (null : r.isNull = true) : v.fate = .emitted r := by
  cases visits with
  | skipped => rfl
  | streaming some | dropped some | unresolved some | unbuffered some | refused some
  | linted some => cases null.symm.trans some
  | raised _ _ _ _ ends =>
    obtain ⟨some⟩ := ends
    cases null.symm.trans some

end Visits

/-- Of records without contents only those that come with a payload are handed on with one. -/
theorem lint_of_handed (l : Linter σ) (r : Record) (s : σ) {linted : Record}
    (handed : (l.handle r s).fate = .emitted linted) (bare : r.isNull → r.lint = none) :
    linted.isNull → linted.lint = none := by
  intro null
  have same := (l.handle_visits r s).emitted linted handed
  have empty : r.isNull = true := by
    rw [same] at null
    exact null
  rw [(l.handle_visits r s).emitted_null empty] at handed
  cases handed
  exact bare empty

/-- A run from a state over records comes to a record, in a state. -/
inductive Reaches (l : Linter σ) : σ → List Record → σ → Record → Prop where
  | here (s : σ) (r : Record) (rest : List Record) : Reaches l s (r :: rest) s r
  | later (s : σ) (first : Record) (rest : List Record) (s' : σ) (r : Record)
    (passes : ∀ e, (l.handle first s).fate ≠ .failed e)
    (reached : Reaches l (l.handle first s).state rest s' r) : Reaches l s (first :: rest) s' r

/-- A run that fails does so in a visit of a record that it comes to. -/
theorem process_error (l : Linter σ) (s : σ) (records : List Record) (e : Error)
    (failed : (l.process s records).error = some e) :
    ∃ s' r, l.Reaches s records s' r ∧ (l.handle r s').fate = .failed e := by
  induction records generalizing s with
  | nil => cases failed
  | cons r rest ih =>
    rw [process] at failed
    dsimp only at failed
    split at failed
    · next fate =>
      cases failed
      exact ⟨s, r, .here s r rest, fate⟩
    · next fate =>
      obtain ⟨s', r', reached, ended⟩ := ih _ failed
      exact ⟨s', r', .later s r rest s' r' (by simp [fate]) reached, ended⟩
    · next linted fate =>
      obtain ⟨s', r', reached, ended⟩ := ih _ failed
      exact ⟨s', r', .later s r rest s' r' (by simp [fate]) reached, ended⟩

end Linter

end LintRun
