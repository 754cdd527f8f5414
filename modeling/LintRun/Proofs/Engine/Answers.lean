import LintRun.Engine

/-!
# Answers that cannot be told of

An engine that fails does so by an error of the engine, unless it is cancelled or what it gives back
is no payload and cannot be quoted either (`Engine.fails_by_engine_iff`). Every answer is of one of
three kinds: it gives a payload, is refused with a quote of it, or cannot be told of.
-/
namespace LintRun

/-- An error is neither one of an engine nor a cancellation. -/
def Error.IsOrdinary (e : Error) : Prop := (∀ p, e ≠ .engine p) ∧ ∀ words, e ≠ .cancelled words

theorem Error.isOrdinary_ofExcess (x : Excess) : (Error.ofExcess x).IsOrdinary := by
  simp [IsOrdinary, ofExcess]

theorem Error.isOrdinary_ofFault (f : Fault) : (Error.ofFault f).IsOrdinary := by
  simp [IsOrdinary, ofFault]

namespace Answer

/-- The payload that an answer is, or holds in its parts. -/
inductive Gives : Answer → Payload → Prop where
  | payload (p : Payload) : Gives (.payload p) p
  | text (s : String) : Gives (.value (.text s)) ⟨s, "json"⟩
  /-- An object whose output is a text, without a format. -/
  | output (shown : Except Fault String) (s : String) :
    Gives (.object shown (.ok (some (.text s))) (.ok none)) ⟨s, "json"⟩
  | formatted (shown : Except Fault String) (s : String) (v : Value) (format : String)
    (spelled : v.shown? = .ok format) :
    Gives (.object shown (.ok (some (.text s))) (.ok (some v))) ⟨s, format⟩

/-- An answer is no payload, and this is how it is quoted. -/
inductive IsRefused : Answer → String → Prop where
  | value (v : Value) (shown : String) (other : ∀ s, v ≠ .text s) (quoted : v.quote? = .ok shown) :
    IsRefused (.value v) shown
  | object (shown : String) (output : Option Value) (format : Except Fault (Option Value))
    (other : ∀ s, output ≠ some (.text s)) :
    IsRefused (.object (.ok shown) (.ok output) format) shown

/-- An answer neither gives a payload nor can be quoted in a message that says so: this error comes
of it. -/
inductive Untold : Error → Answer → Prop where
  | value (v : Value) (x : Excess) (other : ∀ s, v ≠ .text s) (unquotable : v.quote? = .error x) :
    Untold (.ofExcess x) (.value v)
  | format (shown : Except Fault String) (s : String) (v : Value) (x : Excess)
    (unquotable : v.shown? = .error x) :
    Untold (.ofExcess x) (.object shown (.ok (some (.text s))) (.ok (some v)))
  /-- The output cannot even be asked for. -/
  | outputFault (shown : Except Fault String) (format : Except Fault (Option Value)) (f : Fault) :
    Untold (.ofFault f) (.object shown (.error f) format)
  | formatFault (shown : Except Fault String) (s : String) (f : Fault) :
    Untold (.ofFault f) (.object shown (.ok (some (.text s))) (.error f))
  | quoteFault (output : Option Value) (format : Except Fault (Option Value)) (f : Fault)
    (other : ∀ s, output ≠ some (.text s)) :
    Untold (.ofFault f) (.object (.error f) (.ok output) format)

theorem Untold.isOrdinary {a : Answer} {e : Error} (untold : a.Untold e) : e.IsOrdinary := by
  cases untold with
  | value | format => exact Error.isOrdinary_ofExcess _
  | _ => exact Error.isOrdinary_ofFault _

variable (relative : String) {a : Answer}

theorem toPayload_of_gives {p : Payload} (gives : a.Gives p) : a.toPayload relative = .ok p := by
  cases gives with
  | formatted shown s v format spelled =>
    change formatted s (some v) = _
    rw [LintRun.formatted, spelled]
    rfl
  | _ => rfl

theorem toPayload_of_isRefused {shown : String} (refused : a.IsRefused shown) :
    a.toPayload relative = .error (.engine (.unexpected relative shown)) := by
  cases refused with
  | value v shown other quoted =>
    cases v with
    | text s => exact absurd rfl (other s)
    | _ => simp [toPayload, unexpected, quoted]
  | object shown output format other =>
    cases output with
    | none => rfl
    | some v =>
      cases v with
      | text s => exact absurd rfl (other s)
      | _ => rfl

theorem toPayload_of_untold {e : Error} (untold : a.Untold e) :
    a.toPayload relative = .error e := by
  cases untold with
  | value v x other unquotable =>
    cases v with
    | text s => exact absurd rfl (other s)
    | _ => simp [toPayload, unexpected, unquotable]
  | format shown s v x unquotable =>
    change formatted s (some v) = _
    rw [LintRun.formatted, unquotable]
    rfl
  | quoteFault output format f other =>
    cases output with
    | none => rfl
    | some v =>
      cases v with
      | text s => exact absurd rfl (other s)
      | _ => rfl
  | _ => rfl

/-- Every answer is a payload, or is none and can be quoted, or cannot. -/
theorem gives_or_isRefused_or_untold (a : Answer) :
    (∃ p, a.Gives p) ∨ (∃ shown, a.IsRefused shown) ∨ ∃ e, a.Untold e := by
  have value (v : Value) (other : ∀ s, v ≠ .text s) :
      (∃ shown, IsRefused (.value v) shown) ∨ ∃ e, Untold e (.value v) := by
    cases quoting : v.quote? with
    | ok shown => exact .inl ⟨shown, .value v shown other quoting⟩
    | error x => exact .inr ⟨_, .value v x other quoting⟩
  have object (s : String) (shown : Except Fault String) (format : Except Fault (Option Value)) :
      (∃ p, Gives (.object shown (.ok (some (.text s))) format) p) ∨
        ∃ e, Untold e (.object shown (.ok (some (.text s))) format) := by
    rcases format with f | _ | v
    · exact .inr ⟨_, .formatFault shown s f⟩
    · exact .inl ⟨_, .output shown s⟩
    · cases spelling : v.shown? with
      | ok format => exact .inl ⟨_, .formatted shown s v format spelling⟩
      | error x => exact .inr ⟨_, .format shown s v x spelling⟩
  cases a with
  | payload p => exact .inl ⟨p, .payload p⟩
  | value v =>
    cases v with
    | text s => exact .inl ⟨_, .text s⟩
    | _ => exact .inr (value _ (by simp))
  | object shown output format =>
    rcases output with f | output
    · exact .inr (.inr ⟨_, .outputFault shown format f⟩)
    · by_cases holds : ∃ s, output = some (.text s)
      · obtain ⟨s, rfl⟩ := holds
        exact (object s shown format).imp_right .inr
      · have other := not_exists.mp holds
        rcases shown with f | shown
        · exact .inr (.inr ⟨_, .quoteFault output format f other⟩)
        · exact .inr (.inl ⟨shown, .object shown output format other⟩)

/-- An answer that is refused is told of as an error of the engine, unless it cannot be quoted. -/
theorem engine_or_untold {e : Error} (failed : a.toPayload relative = .error e) :
    (∃ p, e = .engine p) ∨ a.Untold e := by
  rcases a.gives_or_isRefused_or_untold with ⟨p, gives⟩ | ⟨shown, refused⟩ | ⟨other, untold⟩
  · cases (toPayload_of_gives relative gives).symm.trans failed
  · cases (toPayload_of_isRefused relative refused).symm.trans failed
    exact .inl ⟨_, rfl⟩
  · cases (toPayload_of_untold relative untold).symm.trans failed
    exact .inr untold

end Answer

/-- An engine answers a request by something that is no payload and cannot be quoted. -/
def Engine.GivesUntold {σ : Type} (engine : Engine σ) (q : Request) (s : σ) : Prop :=
  ∃ lint answer e, engine = .callable lint ∧ (lint q s).1.ending = .ok answer ∧ answer.Untold e

/-- An engine that fails, and is not cancelled, does so by an error of the engine, unless it gives
back something that cannot be quoted. -/
theorem Engine.fails_by_engine_iff {σ : Type} (engine : Engine σ) (q : Request) (s : σ) (e : Error)
    (ending : (engine.run q s).1.ending = .error e) (uncancelled : ∀ words, e ≠ .cancelled words) :
    (∃ p, e = .engine p) ↔ ¬ engine.GivesUntold q s := by
  constructor
  · rintro ⟨p, rfl⟩ ⟨lint, answer, other, rfl, answered, untold⟩
    simp only [run, Call.toPayload, answered, Answer.toPayload_of_untold _ untold] at ending
    exact untold.isOrdinary.1 p (Except.error.inj ending)
  · intro told
    cases engine with
    | uncallable v =>
      cases ending
      exact ⟨_, rfl⟩
    | callable lint =>
      simp only [run, Call.toPayload] at ending
      split at ending
      · next answer answered =>
        rcases Answer.engine_or_untold _ ending with ofEngine | untold
        · exact ofEngine
        · exact absurd ⟨lint, answer, e, rfl, answered, untold⟩ told
      · next cause _ =>
        cases ending
        cases cause with
        | cancelled words => exact absurd rfl (uncancelled words)
        | _ => exact ⟨_, rfl⟩

def Value.nested : Nat → Value
  | 0 => .list []
  | depth + 1 => .list [nested depth]

theorem Value.firstUnquotable?_nested (room depth : Nat) (deep : room ≤ depth) :
    firstUnquotable? room (nested depth) = some .quoting := by
  induction room generalizing depth with
  | zero => simp [firstUnquotable?]
  | succ room ih =>
    cases depth with
    | zero => omega
    | succ depth =>
      simp [nested, firstUnquotable?, firstUnquotableOfList?, ih depth (by omega)]

/-- An answer of lists nested too deep cannot be quoted. -/
theorem Answer.untold_nested (depth : Nat) (deep : Depth.quoted ≤ depth) :
    Untold (.ofExcess .quoting) (.value (.nested depth)) := by
  refine .value _ _ ?_ ?_
  · cases depth <;> simp [Value.nested]
  · rw [Value.quote?, Value.firstUnquotable?_nested _ _ deep]

end LintRun
