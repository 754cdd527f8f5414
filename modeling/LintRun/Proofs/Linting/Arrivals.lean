import LintRun.Proofs.Linting.Visit

/-!
# Arrivals

The state in which each record of a run comes to the linting stage, what the stage then does for
it (`turn`) and how it leaves it (`left`). A run that nothing stops is the turns of its arrivals one
after the other (`process_of_arrivals`), and a run parts anywhere into the run over the first
records and the one over the rest (`process_append`).
-/
namespace LintRun

/-- A record on its arrival, with the state of the parts supplied from outside. -/
structure Arrival (σ : Type) where
  record : Record
  state : σ

def Visit.handed {σ : Type} (v : Visit σ) : Option Record :=
  match v.fate with
  | .emitted r => some r
  | _ => none

/-- The events of a visit, and the record that it hands on. -/
def Visit.turn {σ : Type} (v : Visit σ) : List Event := v.events ++ (v.handed.map .emit).toList

/-- How a visit leaves a record: a record that is handed on may have got a payload. -/
def Visit.left {σ : Type} (v : Visit σ) (r : Record) : Record := v.handed.getD r

/-- A visit that does not stop its run. -/
def Visit.Passes {σ : Type} (v : Visit σ) : Prop := ∀ e, v.fate ≠ .failed e

namespace Linter

variable {σ : Type} (l : Linter σ)

def visit (a : Arrival σ) : Visit σ := l.handle a.record a.state

/-- The records of a run, each with the state in which it comes. -/
def arrivals (s : σ) : List Record → List (Arrival σ)
  | [] => []
  | r :: rest => ⟨r, s⟩ :: arrivals (l.handle r s).state rest

/-- The events of a record that arrives, and the record if it is handed on. -/
def turn (a : Arrival σ) : List Event := (l.visit a).turn

def left (a : Arrival σ) : Record := (l.visit a).left a.record

theorem emitted_visit (a : Arrival σ) : emitted (l.visit a).events = [] := by
  apply List.filterMap_eq_nil_iff.mpr
  intro e member
  cases (l.handle_visits a.record a.state).isOf e member <;> rfl

theorem emitted_turn (a : Arrival σ) : emitted (l.turn a) = (l.visit a).handed.toList := by
  rw [turn, Visit.turn, emitted_append, emitted_visit]
  cases (l.visit a).handed <;> rfl

section Arrivals

variable (s : σ) (records : List Record)

theorem map_record_arrivals : (l.arrivals s records).map Arrival.record = records := by
  induction records generalizing s with
  | nil => rfl
  | cons r rest ih => rw [arrivals, List.map_cons, ih]

/-- The run goes on behind a visit that does not stop it. -/
theorem process_cons (r : Record) (passes : (l.handle r s).Passes) :
    l.process s (r :: records) =
      let later := l.process (l.handle r s).state records
      ⟨l.turn ⟨r, s⟩ ++ later.events, l.left ⟨r, s⟩ :: later.records, later.state,
        later.error⟩ := by
  rw [process]
  cases fate : (l.handle r s).fate with
  | failed e => exact absurd fate (passes e)
  | dropped => simp [turn, left, visit, Visit.turn, Visit.left, Visit.handed, fate]
  | emitted linted => simp [turn, left, visit, Visit.turn, Visit.left, Visit.handed, fate]

/-- The visits of a run that ends well do not stop it. -/
theorem passes_of_process (reached : (l.process s records).error = none) :
    ∀ a ∈ l.arrivals s records, (l.visit a).Passes := by
  induction records generalizing s with
  | nil => simp [arrivals]
  | cons r rest ih =>
    have passes : (l.handle r s).Passes := by
      intro e fate
      rw [process] at reached
      simp [fate] at reached
    rw [process_cons _ _ _ _ passes] at reached
    rintro a member
    rcases List.mem_cons.mp member with rfl | member
    · exact passes
    · exact ih _ reached a member

/-- A run that nothing stops is the turns of its arrivals. -/
theorem process_of_arrivals (passes : ∀ a ∈ l.arrivals s records, (l.visit a).Passes) :
    (l.process s records).error = none ∧
      (l.process s records).events = (l.arrivals s records).flatMap l.turn ∧
      (l.process s records).records = (l.arrivals s records).map l.left := by
  induction records generalizing s with
  | nil => exact ⟨rfl, rfl, rfl⟩
  | cons r rest ih =>
    obtain ⟨reached, events, left⟩ := ih (l.handle r s).state fun a member =>
      passes a (List.mem_cons_of_mem _ member)
    rw [process_cons _ _ _ _ (passes ⟨r, s⟩ (by simp [arrivals]))]
    refine ⟨reached, ?_, ?_⟩
    · simp [arrivals, events]
    · simp [arrivals, left]

/-- A run is the one over its first records, and the one over the others from there. -/
theorem process_append (first second : List Record)
    (reached : (l.process s first).error = none) :
    l.process s (first ++ second) =
      let front := l.process s first
      let later := l.process front.state second
      ⟨front.events ++ later.events, front.records ++ later.records, later.state, later.error⟩ := by
  induction first generalizing s with
  | nil => rfl
  | cons r rest ih =>
    have passes : (l.handle r s).Passes := l.passes_of_process s (r :: rest) reached ⟨r, s⟩
      (by simp [arrivals])
    rw [process_cons _ _ _ _ passes] at reached
    rw [List.cons_append, process_cons _ _ _ _ passes, process_cons _ _ _ _ passes, ih _ reached]
    simp

/-- The visit that stops a run is the last thing that happens in it. -/
theorem process_of_failed (r : Record) (events : List Event) (next : σ) (e : Error)
    (failed : l.visit ⟨r, s⟩ = ⟨events, next, .failed e⟩) :
    l.process s (r :: records) = ⟨events, r :: records, next, some e⟩ := by
  simp only [visit] at failed
  simp only [process, failed]

end Arrivals

end Linter

end LintRun
