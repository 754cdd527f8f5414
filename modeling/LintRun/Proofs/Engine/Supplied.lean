import LintRun.Engine.Supplied
import LintRun.Proofs.Engine.Answers
import LintRun.Proofs.Outcomes

/-!
# What becomes of the call of an engine

Whatever is supplied as an engine is called at most once, with the request as it stands, and what
comes of the call is settled by how it ended (`ask_concludes`): a payload, an error of the engine or
the cancellation of the call, unless it gave back something that cannot be quoted.
-/
namespace LintRun

variable {σ : Type}

/-- What becomes of the way in which the call of an engine for a file ends. -/
inductive Concludes (relative : String) : Except Error Answer → Except Error Payload → Prop where
  | payload {a : Answer} {p : Payload} (gives : a.Gives p) : Concludes relative (.ok a) (.ok p)
  | refused {a : Answer} {shown : String} (refused : a.IsRefused shown) :
    Concludes relative (.ok a) (.error (.engine (.unexpected relative shown)))
  /-- No payload, and no quote of it either. -/
  | untold {a : Answer} {e : Error} (untold : a.Untold e) :
    Concludes relative (.ok a) (.error e)
  /-- An error of the engine is not told again with the file. -/
  | engine (p : EngineProblem) : Concludes relative (.error (.engine p)) (.error (.engine p))
  | cancelled (words : String) :
    Concludes relative (.error (.cancelled words)) (.error (.cancelled words))
  | ordinary {e : Error} (ordinary : e.IsOrdinary) :
    Concludes relative (.error e) (.error (.engine (.failed relative e.message)))

section Ending

variable (relative : String)

theorem Error.ofEngine_of_isOrdinary {e : Error} (ordinary : e.IsOrdinary) :
    e.ofEngine relative = .engine (.failed relative e.message) := by
  cases e with
  | engine p => exact absurd rfl (ordinary.1 p)
  | cancelled words => exact absurd rfl (ordinary.2 words)
  | _ => rfl

/-- How a call ends settles what becomes of it. -/
theorem concludes_iff (c : Call Answer) (result : Except Error Payload) :
    Concludes relative c.ending result ↔ (c.toPayload relative).ending = result := by
  have settled (result : Except Error Payload) (concludes : Concludes relative c.ending result) :
      (c.toPayload relative).ending = result := by
    unfold Call.toPayload
    generalize c.ending = ending at concludes
    cases concludes with
    | payload gives => exact Answer.toPayload_of_gives relative gives
    | refused refused => exact Answer.toPayload_of_isRefused relative refused
    | untold untold => exact Answer.toPayload_of_untold relative untold
    | engine p => rfl
    | cancelled words => rfl
    | ordinary ordinary => exact congrArg _ (Error.ofEngine_of_isOrdinary relative ordinary)
  have total : ∃ result, Concludes relative c.ending result := by
    cases c.ending with
    | ok a =>
      rcases a.gives_or_isRefused_or_untold with ⟨p, gives⟩ | ⟨shown, refused⟩ | ⟨e, untold⟩
      · exact ⟨_, .payload gives⟩
      · exact ⟨_, .refused refused⟩
      · exact ⟨_, .untold untold⟩
    | error e =>
      cases e with
      | engine p => exact ⟨_, .engine p⟩
      | cancelled words => exact ⟨_, .cancelled words⟩
      | _ => exact ⟨_, .ordinary ⟨by simp, by simp⟩⟩
  refine ⟨settled result, fun same => ?_⟩
  obtain ⟨concluded, concludes⟩ := total
  rwa [← same, settled concluded concludes]

end Ending

namespace Callee

/-- How the call of something with a request ends, waited for if need be, and the state it leaves.
What cannot be called ends with an error that says so. -/
inductive Ends (q : Request) (s : σ) : Callee σ → Except Error Answer → σ → Prop where
  | failed {call : Request → σ → Call (Reply σ) × σ} {e : Error} {seconds : Float} {left : σ}
    (called : call q s = (⟨.error e, seconds⟩, left)) : Ends q s (.callable call) (.error e) left
  | answered {call : Request → σ → Call (Reply σ) × σ} {a : Answer} {seconds : Float} {left : σ}
    (called : call q s = (⟨.ok (.answer a), seconds⟩, left)) :
    Ends q s (.callable call) (.ok a) left
  | awaited {call : Request → σ → Call (Reply σ) × σ} {await : σ → Call Answer × σ}
    {ending : Except Error Answer} {seconds more : Float} {between left : σ}
    (called : call q s = (⟨.ok (.pending await), seconds⟩, between))
    (settled : await between = (⟨ending, more⟩, left)) : Ends q s (.callable call) ending left
  | uncallable (v : Value) : Ends q s (.uncallable v) (.error (notCallable v)) s

def requests (q : Request) : Callee σ → List Request
  | .callable _ => [q]
  | .uncallable _ => []

end Callee

/-- A reply that leaves alone what was written down besides. -/
def Reply.beside : Reply σ → Reply (σ × List Request)
  | .answer a => .answer a
  | .pending await => .pending fun (s, heard) =>
    let (c, s) := await s
    (c, (s, heard))

namespace Callee

/-- What is called, with each request written down. -/
def recording : Callee σ → Callee (σ × List Request)
  | .callable call => .callable fun r (s, heard) =>
    let (c, s) := call r s
    (⟨c.ending.map Reply.beside, c.seconds⟩, (s, heard ++ [r]))
  | .uncallable v => .uncallable v

/-- Writing down requests changes nothing but what is written down: the requests with which the
callee is called. -/
theorem run_recording (callee : Callee σ) (q : Request) (s : σ) (heard : List Request) :
    callee.recording.engine.run q (s, heard) =
      ((callee.engine.run q s).1, ((callee.engine.run q s).2, heard ++ callee.requests q)) := by
  cases callee with
  | uncallable v => simp [recording, engine, Engine.run, requests]
  | callable call =>
    simp only [recording, engine, Engine.run, requests]
    rcases call q s with ⟨⟨_ | _ | _, _⟩, _⟩ <;> rfl

theorem ends_run (callee : Callee σ) (q : Request) (s : σ) :
    ∃ ending, callee.Ends q s ending (callee.engine.run q s).2 ∧
      ∀ result, Concludes q.relative ending result ↔
        (callee.engine.run q s).1.ending = result := by
  cases callee with
  | uncallable v =>
    exact ⟨_, .uncallable v, concludes_iff q.relative ⟨.error (notCallable v), 0⟩⟩
  | callable call =>
    refine ⟨(Reply.settle (call q s)).1.ending, ?_, concludes_iff q.relative _⟩
    simp only [engine, Engine.run]
    rcases called : call q s with ⟨⟨e | a | await, seconds⟩, left⟩
    · exact .failed called
    · exact .answered called
    · exact .awaited called rfl

end Callee

namespace Supplied

/-- What of an engine is called: its attribute `lint` if it can be called, else the engine. -/
inductive Calls : Supplied σ → Callee σ → Prop where
  | lint (call : Request → σ → Call (Reply σ) × σ) (itself : Callee σ) :
    Calls ⟨some (.callable call), itself⟩ (.callable call)
  | lintUncallable (v : Value) (itself : Callee σ) : Calls ⟨some (.uncallable v), itself⟩ itself
  | noLint (itself : Callee σ) : Calls ⟨none, itself⟩ itself

theorem calls_callee (e : Supplied σ) : e.Calls e.callee := by
  rcases e with ⟨_ | call | v, itself⟩
  · exact .noLint itself
  · exact .lint call itself
  · exact .lintUncallable v itself

/-- What is supplied, with each request written down that it is called with. -/
def recording (e : Supplied σ) : Supplied (σ × List Request) :=
  ⟨e.lint.map Callee.recording, e.itself.recording⟩

theorem callee_recording (e : Supplied σ) : e.recording.callee = e.callee.recording := by
  rcases e with ⟨_ | call | v, itself⟩ <;> rfl

end Supplied

def Engine.IsTold (result : Except Error Payload) : Prop :=
  (∃ p, result = .ok p) ∨ (∃ p, result = .error (.engine p)) ∨
    ∃ words, result = .error (.cancelled words)

theorem Engine.isTold_iff {relative : String} {ending : Except Error Answer}
    {result : Except Error Payload} (concludes : Concludes relative ending result) :
    IsTold result ↔ ¬ ∃ a e, ending = .ok a ∧ a.Untold e := by
  cases concludes with
  | payload gives =>
    refine iff_of_true (.inl ⟨_, rfl⟩) ?_
    rintro ⟨a, e, same, untold⟩
    cases same
    cases (Answer.toPayload_of_gives relative gives).symm.trans
      (Answer.toPayload_of_untold relative untold)
  | refused refused =>
    refine iff_of_true (.inr (.inl ⟨_, rfl⟩)) ?_
    rintro ⟨a, e, same, untold⟩
    cases same
    cases (Answer.toPayload_of_isRefused relative refused).symm.trans
      (Answer.toPayload_of_untold relative untold)
    exact untold.isOrdinary.1 _ rfl
  | untold untold =>
    refine iff_of_false ?_ fun told => told ⟨_, _, rfl, untold⟩
    rintro (⟨p, same⟩ | ⟨p, same⟩ | ⟨words, same⟩)
    · cases same
    · exact untold.isOrdinary.1 p (Except.error.inj same)
    · exact untold.isOrdinary.2 words (Except.error.inj same)
  | engine p => exact iff_of_true (.inr (.inl ⟨p, rfl⟩)) (by simp)
  | cancelled words => exact iff_of_true (.inr (.inr ⟨words, rfl⟩)) (by simp)
  | ordinary => exact iff_of_true (.inr (.inl ⟨_, rfl⟩)) (by simp)

/-- Whatever is supplied as an engine, one part of it is called, once and with exactly this request,
if it can be called at all, and what becomes of that is settled by how it ends. It is a payload, an
error of the engine or the cancellation of the call, exactly if no answer was given back that is no
payload and cannot be quoted either. -/
theorem ask_concludes (e : Supplied σ) (rulesDirectory : Option Path) (relative text : String)
    (configuration : Table) (s : σ) :
    let q : Request := ⟨relative, text, configuration, rulesDirectory⟩
    let asked := e.ask rulesDirectory relative text configuration s
    ∃ callee ending, e.Calls callee ∧ callee.Ends q s ending asked.2 ∧
      (e.recording.ask rulesDirectory relative text configuration (s, []) =
        (asked.1, (asked.2, callee.requests q))) ∧
      (∀ result, asked.1.ending = result ↔ Concludes relative ending result) ∧
      (Engine.IsTold asked.1.ending ↔ ¬ ∃ a e, ending = .ok a ∧ a.Untold e) := by
  intro q asked
  obtain ⟨ending, ends, concludes⟩ := e.callee.ends_run q s
  refine ⟨e.callee, ending, e.calls_callee, ends, ?_, fun result => (concludes result).symm,
    Engine.isTold_iff ((concludes _).mpr rfl)⟩
  have recorded := e.callee.run_recording q s []
  rwa [← e.callee_recording] at recorded

/-- Lists nested too deep, which an engine object gives after a while, are not told of as an error
of the engine. -/
theorem nested_reply_untold :
    let lint : Callee Unit := .callable fun _ s =>
      (⟨.ok (.pending fun s => (⟨.ok (.value (.nested 985)), 0⟩, s)), 0⟩, s)
    let asked := Supplied.ask ⟨some lint, .uncallable .null⟩ none "a.ts" "" [] ()
    asked.1.ending = .error (.ofExcess .quoting) ∧ ¬ Engine.IsTold asked.1.ending := by
  intro lint asked
  have ending : asked.1.ending = .error (.ofExcess .quoting) :=
    Answer.toPayload_of_untold "a.ts" (Answer.untold_nested 985 (by decide))
  exact ⟨ending, by simp [ending, Engine.IsTold, Error.ofExcess]⟩

end LintRun
