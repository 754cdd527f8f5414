import LintRun.Linting.OfOptions
import LintRun.Proofs.Linting.Arrivals
import LintRun.Store

/-!
# Stages that keep apart

Records in a store, under keys that are all different, are as good as values: a stage finds each of
them as it came, and leaves the others alone (`Linter.processIn_eq`, `Flow.runIn_eq`). Two stages
whose parts supplied from outside share no state work beside each other as each of them does alone
(`Linter.handle_beside`, `Judge.handle_beside`).
-/
namespace LintRun

section Store

variable {ι : Type} [DecidableEq ι] (store : Store ι)

/-- The store with other records under keys, one after the other. -/
def Store.putAll (store : Store ι) : List ι → List Record → Store ι
  | k :: keys, r :: records => (store.put k r).putAll keys records
  | _, _ => store

@[simp] theorem Store.put_self (k : ι) (r : Record) : store.put k r k = r := if_pos rfl

theorem Store.put_of_ne {k other : ι} (r : Record) (ne : other ≠ k) :
    store.put k r other = store other := if_neg ne

@[simp] theorem Store.put_same (k : ι) : store.put k (store k) = store := by
  funext other
  by_cases same : other = k
  · rw [same, put_self]
  · exact store.put_of_ne _ same

@[simp] theorem Store.putAll_same (keys : List ι) : store.putAll keys (keys.map store) = store := by
  induction keys with
  | nil => rfl
  | cons k rest ih => rw [List.map_cons, putAll, put_same, ih]

/-- A record under another key is nothing to the keys. -/
theorem Store.map_put_of_not_mem {k : ι} {keys : List ι} (r : Record) (absent : k ∉ keys) :
    keys.map (store.put k r) = keys.map store := by
  refine List.map_congr_left fun other member => store.put_of_ne r ?_
  rintro rfl
  exact absent member

end Store

section Keys

variable {ι σ : Type} [DecidableEq ι]

/-- The keys of the records that a linting stage hands on, in order. -/
def Linter.handedIn (l : Linter σ) (s : σ) (store : Store ι) : List ι → List ι
  | [] => []
  | k :: rest =>
    let now := l.handle (store k) s
    match now.fate with
    | .failed _ => []
    | .dropped => l.handedIn now.state store rest
    | .emitted linted => k :: l.handedIn now.state (store.put k linted) rest

/-- A stage changes records under its keys only. -/
theorem Linter.processIn_store (l : Linter σ) (s : σ) (store : Store ι) {k : ι} {keys : List ι}
    (absent : k ∉ keys) : (l.processIn s store keys).store k = store k := by
  induction keys generalizing s store with
  | nil => rfl
  | cons first rest ih =>
    obtain ⟨other, absentLater⟩ := List.ne_and_not_mem_of_not_mem_cons absent
    rw [processIn]
    cases (l.handle (store first) s).fate with
    | failed e => rfl
    | dropped => exact ih _ _ absentLater
    | emitted linted => exact (ih _ _ absentLater).trans (store.put_of_ne linted other)

section Distinct

variable (l : Linter σ) (s : σ) (store : Store ι) {keys : List ι} (distinct : keys.Nodup)

include distinct

/-- Over different records a stage does what it does over their values. -/
theorem Linter.processIn_eq :
    l.processIn s store keys =
      let course := l.process s (keys.map store)
      ⟨course.events, store.putAll keys course.records, course.state, course.error⟩ := by
  induction keys generalizing s store with
  | nil => rfl
  | cons k rest ih =>
    obtain ⟨absent, distinctLater⟩ := List.nodup_cons.mp distinct
    rw [processIn, List.map_cons, process]
    cases (l.handle (store k) s).fate with
    | failed e => simp [Store.putAll]
    | dropped => simp [ih _ _ distinctLater, Store.putAll]
    | emitted linted =>
      simp [ih _ _ distinctLater, store.map_put_of_not_mem linted absent, Store.putAll]

/-- Different records lie in the store, when a stage is done, as it has handed them on. -/
theorem Linter.map_handedIn :
    (l.handedIn s store keys).map (l.processIn s store keys).store =
      emitted (l.process s (keys.map store)).events := by
  induction keys generalizing s store with
  | nil => rfl
  | cons k rest ih =>
    obtain ⟨absent, distinctLater⟩ := List.nodup_cons.mp distinct
    have quiet : emitted (l.handle (store k) s).events = [] := l.emitted_visit ⟨store k, s⟩
    rw [processIn, handedIn, List.map_cons, process]
    cases (l.handle (store k) s).fate with
    | failed e => simp [quiet]
    | dropped => simp [quiet, ih _ _ distinctLater]
    | emitted linted =>
      have kept := l.processIn_store (l.handle (store k) s).state (store.put k linted) absent
      simp [quiet, kept, ih _ _ distinctLater, store.map_put_of_not_mem linted absent]

/-- Over different records a run does what it does over their values. -/
theorem Flow.runIn_eq [Wording] (f : Flow σ) (t : Tally) :
    f.runIn s t store keys =
      let outcome := f.run s t (keys.map store)
      ⟨⟨outcome.events, store.putAll keys outcome.records, outcome.state, outcome.error⟩,
        outcome.tally⟩ := by
  induction keys generalizing s t store with
  | nil => rfl
  | cons k rest ih =>
    obtain ⟨absent, distinctLater⟩ := List.nodup_cons.mp distinct
    rw [runIn, List.map_cons, run]
    cases (f.linter.handle (store k) s).fate with
    | failed e => simp [Store.putAll]
    | dropped => simp [ih _ _ distinctLater, Store.putAll]
    | emitted linted =>
      have others := store.map_put_of_not_mem linted absent
      cases ending : (f.judge.handle t (f.linter.handle (store k) s).state linted).error with
      | some e =>
        simp only [ending, Store.putAll]
        rw [← others, Store.putAll_same]
      | none => simp [ending, ih _ _ distinctLater, others, Store.putAll]

end Distinct

section Arrivals

variable [Wording]

/-- The records under keys as they come to a run, in order. Those that come behind an error are as
they lie in the store then. -/
def Flow.arrivals (f : Flow σ) (s : σ) (t : Tally) (store : Store ι) : List ι → List Record
  | [] => []
  | k :: rest =>
    let now := f.linter.handle (store k) s
    store k ::
      match now.fate with
      | .failed _ => rest.map store
      | .dropped => f.arrivals now.state t store rest
      | .emitted linted =>
        let ruling := f.judge.handle t now.state linted
        match ruling.error with
        | some _ => rest.map (store.put k linted)
        | none => f.arrivals ruling.state ruling.tally (store.put k linted) rest

variable (f : Flow σ) (s : σ) (t : Tally) (store : Store ι) (keys : List ι)

theorem Flow.exists_arrivals_cons (k : ι) :
    ∃ later, f.arrivals s t store (k :: keys) = store k :: later := ⟨_, rfl⟩

/-- A run over records in a store does what it does over their values as they come. -/
theorem Flow.runIn_arrivals :
    let outcome := f.run s t (f.arrivals s t store keys)
    (f.runIn s t store keys).events = outcome.events ∧
      (f.runIn s t store keys).state = outcome.state ∧
      (f.runIn s t store keys).error = outcome.error ∧
      (f.runIn s t store keys).tally = outcome.tally := by
  induction keys generalizing s t store with
  | nil => exact ⟨rfl, rfl, rfl, rfl⟩
  | cons k rest ih =>
    rw [runIn, arrivals, run]
    generalize f.linter.handle (store k) s = now
    cases now.fate with
    | failed e => exact ⟨rfl, rfl, rfl, rfl⟩
    | dropped =>
      obtain ⟨events, state, error, tally⟩ := ih now.state t store
      simp [events, state, error, tally]
    | emitted linted =>
      dsimp only
      generalize f.judge.handle t now.state linted = ruling
      cases ruling.error with
      | some e => exact ⟨rfl, rfl, rfl, rfl⟩
      | none =>
        obtain ⟨events, state, error, tally⟩ := ih ruling.state ruling.tally (store.put k linted)
        simp [events, state, error, tally]

/-- If no record without contents has a payload at first, then none comes with one: such a record
is never linted. -/
theorem Flow.lint_of_mem_arrivals (bare : ∀ k ∈ keys, (store k).isNull → (store k).lint = none) :
    ∀ r ∈ f.arrivals s t store keys, r.isNull → r.lint = none := by
  induction keys generalizing s t store with
  | nil => nofun
  | cons k rest ih =>
    obtain ⟨here, others⟩ := List.forall_mem_cons.mp bare
    -- What a stage leaves of the record is bare again.
    have left (linted : Record) (handed : (f.linter.handle (store k) s).fate = .emitted linted) :
        ∀ other ∈ rest, (store.put k linted other).isNull →
          (store.put k linted other).lint = none := by
      intro other member
      by_cases same : other = k
      · subst same
        rw [Store.put_self]
        exact f.linter.lint_of_handed (store other) s handed here
      · rw [store.put_of_ne linted same]
        exact others other member
    rw [arrivals]
    refine List.forall_mem_cons.mpr ⟨here, ?_⟩
    cases fate : (f.linter.handle (store k) s).fate with
    | failed e => simpa using others
    | dropped => exact ih _ _ _ others
    | emitted linted =>
      dsimp only
      split
      · simpa using left linted fate
      · exact ih _ _ _ (left linted fate)

end Arrivals

end Keys

section Beside

variable {σ τ : Type}

def Visit.beside (u : τ) (v : Visit σ) : Visit (τ × σ) := ⟨v.events, (u, v.state), v.fate⟩

def Linter.beside (l : Linter σ) : Linter (τ × σ) where
  resolver p s :=
    let (c, next) := l.resolver p s.2
    (c, (s.1, next))
  engine := l.engine.beside
  rulesDirectory := l.rulesDirectory
  limit := l.limit
  handler := l.handler.map fun handle r e s =>
    let (raised, next) := handle r e s.2
    (raised, (s.1, next))

def Judge.beside (j : Judge τ) : Judge (τ × σ) where
  reporter := j.reporter.map fun write b s =>
    let call := write b s.1
    ⟨call.written, call.left, (call.state, s.2)⟩
  options := j.options

/-- The stages of a run whose reporter shares no state with the parts that the linting stage
calls. -/
def Flow.apart (l : Linter σ) (j : Judge τ) : Flow (τ × σ) := ⟨l.beside, j.beside⟩

@[simp] theorem Flow.linter_apart (l : Linter σ) (j : Judge τ) : (apart l j).linter = l.beside :=
  rfl

@[simp] theorem Flow.judge_apart (l : Linter σ) (j : Judge τ) : (apart l j).judge = j.beside := rfl

namespace Linter

variable (l : Linter σ) (u : τ) (r : Record) (events : List Event) (s : σ)

theorem fail_beside (e : Error) : fail r events (u, s) e = (fail r events s e).beside u := by
  cases e <;> rfl

theorem resolve_beside :
    (l.beside : Linter (τ × σ)).resolve r (u, s) =
      ((l.resolve r s).1, (u, (l.resolve r s).2)) := rfl

theorem refuse_beside (e : Error) :
    (l.beside : Linter (τ × σ)).refuse r events (u, s) e = (l.refuse r events s e).beside u := by
  cases chosen : l.handler with
  | none => cases e <;> simp [refuse, beside, chosen, fail_beside]
  | some handle =>
    cases e with
    | resolution path cause =>
      simp only [refuse, beside, chosen, Option.map_some]
      rcases handle r (.resolution path cause) s with ⟨_ | raised, next⟩
      · rfl
      · exact fail_beside u r _ next raised
    | _ => simp [refuse, beside, chosen, fail_beside]

theorem ask_beside (configuration : Table) (text : String) :
    (l.beside : Linter (τ × σ)).ask r events (u, s) configuration text =
      (l.ask r events s configuration text).beside u := by
  cases asked : l.engine with
  | uncallable v =>
    simp only [ask, beside, asked, Engine.beside, Engine.run, Engine.calls]
    split
    · exact fail_beside u r _ s _
    · rfl
  | callable lint =>
    simp only [ask, beside, asked, Engine.beside, Engine.run, Engine.calls]
    split
    · exact fail_beside u r _ _ _
    · rfl

/-- A stage beside a state visits a record as it does alone. -/
theorem handle_beside (x : τ × σ) :
    (l.beside : Linter (τ × σ)).handle r x = (l.handle r x.2).beside x.1 := by
  obtain ⟨u, s⟩ := x
  unfold handle
  split
  · rfl
  · split
    · rfl
    · simp only [lint, resolve_beside]
      cases (l.resolve r s).1 with
      | error e => exact l.refuse_beside u r _ _ e
      | ok configuration =>
        dsimp only
        split
        · exact fail_beside u r _ _ _
        · exact l.ask_beside u r _ _ configuration _

end Linter

theorem Judge.report_beside (j : Judge τ) (b : Batch) (u : τ) (s : σ) :
    (j.beside : Judge (τ × σ)).report b (u, s) =
      let call := (j.report b u).2
      ((j.report b u).1, ⟨call.written, call.left, (call.state, s)⟩) := by
  cases chosen : j.reporter with
  | none => simp [report, beside, chosen]
  | some write => simp [report, beside, chosen]

/-- A stage beside a state reports a record as it does alone. -/
theorem Judge.handle_beside [Wording] (j : Judge τ) (t : Tally) (x : τ × σ) (r : Record) :
    (j.beside : Judge (τ × σ)).handle t x r =
      let alone := j.handle t x.1 r
      ⟨alone.events, alone.tally, (alone.state, x.2), alone.error⟩ := by
  obtain ⟨u, s⟩ := x
  unfold handle
  split
  · rfl
  · next fs _ =>
    split
    · rfl
    · unfold deliver
      simp only [report_beside]
      split
      · rfl
      · have options : (j.beside : Judge (τ × σ)).options = j.options := rfl
        rw [options]
        split <;> rfl

theorem Judge.events_handle_beside [Wording] (j : Judge τ) (t : Tally) (x : τ × σ) (r : Record) :
    ((j.beside : Judge (τ × σ)).handle t x r).events = (j.handle t x.1 r).events := by
  rw [handle_beside]

theorem Judge.error_handle_beside [Wording] (j : Judge τ) (t : Tally) (x : τ × σ) (r : Record) :
    ((j.beside : Judge (τ × σ)).handle t x r).error = (j.handle t x.1 r).error := by
  rw [handle_beside]

end Beside

end LintRun
