import LintRun.Flow

/-!
# Views of a trace

What the surroundings see of a run is read off its trace by views: the batches that the reporter
is called on, the records that the error handler gets, the lines on the log, and the turns of a
trace, the pieces between the records handed on. Every view says what it makes of traces one after
the other.
-/
namespace LintRun

/-- The batches that the reporter is called on, in order. -/
def reported (trace : List Event) : List Batch :=
  trace.filterMap fun
    | .report b => some b
    | _ => none

/-- The records that the error handler gets with their errors, in order. -/
def refused (trace : List Event) : List (Record × Error) :=
  trace.filterMap fun
    | .refuse r e => some (r, e)
    | _ => none

def logged (trace : List Event) : List LogLine :=
  trace.filterMap fun
    | .log c words => some ⟨c, words⟩
    | _ => none

/-- An event that hands a record on. -/
def Event.handsOn : Event → Bool
  | .emit _ => true
  | _ => false

/-- The pieces of a trace before, between and behind the records that it hands on. -/
noncomputable def turns (trace : List Event) : List (List Event) :=
  trace.splitOnP Event.handsOn

section Views

variable (first second : List Event)

@[simp] theorem emitted_nil : emitted [] = [] := rfl

@[simp] theorem emitted_append : emitted (first ++ second) = emitted first ++ emitted second :=
  List.filterMap_append

@[simp] theorem reported_append :
    reported (first ++ second) = reported first ++ reported second :=
  List.filterMap_append

@[simp] theorem refused_append : refused (first ++ second) = refused first ++ refused second :=
  List.filterMap_append

@[simp] theorem logged_append : logged (first ++ second) = logged first ++ logged second :=
  List.filterMap_append

@[simp] theorem emitted_emit (r : Record) : emitted (.emit r :: second) = r :: emitted second := rfl

@[simp] theorem reported_emit (r : Record) : reported (.emit r :: second) = reported second := rfl

@[simp] theorem refused_emit (r : Record) : refused (.emit r :: second) = refused second := rfl

@[simp] theorem logged_emit (r : Record) : logged (.emit r :: second) = logged second := rfl

theorem handsOn_eq_false (silent : emitted first = []) : ∀ e ∈ first, e.handsOn = false := by
  intro e member
  have absent := List.filterMap_eq_nil_iff.mp silent e member
  cases e with
  | emit r => simp at absent
  | _ => rfl

/-- A trace that hands nothing on is one turn. -/
theorem turns_of_emitted_nil (silent : emitted first = []) : turns first = [first] :=
  List.splitOnP_eq_singleton (handsOn_eq_false first silent)

/-- The first record that a trace hands on ends its first turn. -/
theorem turns_append_emit (silent : emitted first = []) (r : Record) :
    turns (first ++ .emit r :: second) = first :: turns second :=
  List.splitOnP_append_cons_of_forall_mem (handsOn_eq_false first silent) _ rfl _

end Views

end LintRun
